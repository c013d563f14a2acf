import IdentityLedger.Config.Retry
import IdentityLedger.Proofs.Duration

/-!
# Delays of the policies that can be used

The growth of a usable policy is one or more at every attempt, or infinite once the power
overflows. From that the delay is known in every case: it is missing when the limit is rounded
up to a number of seconds that no duration has and nothing smaller stands against it, and
without a delay to begin with there is none at any attempt, unless the growth overflows.
-/
namespace IdentityLedger.RetryPolicy
open Numeric Duration

variable {p : RetryPolicy}

/-- How much the delay has grown after failed attempt number `attempt`. -/
def growth (p : RetryPolicy) (attempt : ℕ) : Float :=
  power p.multiplier (min (attempt - 1) maxExponent)

def unlimited (p : RetryPolicy) (attempt : ℕ) : Float := p.baseDelay.seconds * p.growth attempt

/-- The least number of seconds that no duration has, `2 ^ 64`. -/
def tooManySeconds : Float := 18446744073709551616

theorem hasValue_tooManySeconds : HasValue tooManySeconds (2 ^ 64) := by
  have h : tooManySeconds.toModel.unpack = .finite .positive (2 ^ 52) 12 (by decide) := rfl
  rw [HasValue, h]
  exact ⟨⟨by norm_num, by norm_num, .inl le_rfl⟩, by norm_num⟩

theorem growth_atLeastOne (h : p.error? = none) (attempt : ℕ) : AtLeastOne (p.growth attempt) := by
  refine AtLeastOne.power ?_ _
  unfold error? at h
  split_ifs at h with _ hmultiplier
  simp only [Bool.or_eq_true, Bool.not_eq_true', decide_eq_true_eq, not_or,
    Bool.not_eq_false] at hmultiplier
  exact .inr (hasValue_of_not_lt_one hmultiplier.1 hmultiplier.2)

/-- The delay in seconds is a number whose size decides: from `2 ^ 64` on there is no delay. -/
theorem delayAfter_eq_none_iff {attempt : ℕ} {s : ℚ} (hs : HasValue (p.delaySeconds attempt) s) :
    p.delayAfter attempt = none ↔ 2 ^ 64 ≤ s := by
  simp only [delayAfter, hs.isFinite, Bool.true_and, decide_eq_true_eq, hasValue_zero.lt_iff hs]
  split_ifs with hpos
  · exact ofSeconds?_eq_none_iff hs
  · simp only [false_iff, not_le]
    exact (not_lt.mp hpos).trans_lt (by norm_num)

theorem delayAfter_eq_zero {attempt : ℕ} (hs : HasValue (p.delaySeconds attempt) 0) :
    p.delayAfter attempt = some .zero := by
  simp only [delayAfter, hs.isFinite, Bool.true_and, decide_eq_true_eq, hasValue_zero.lt_iff hs,
    lt_irrefl, if_false]

theorem delayAfter_ne_zero {attempt : ℕ} {s : ℚ} (hs : HasValue (p.delaySeconds attempt) s)
    (hsize : 1 / 1073741824 ≤ s) : p.delayAfter attempt ≠ some .zero := by
  have hpos : 0 < s := lt_of_lt_of_le (by norm_num) hsize
  simp only [delayAfter, hs.isFinite, Bool.true_and, decide_eq_true_eq, hasValue_zero.lt_iff hs,
    hpos, if_true]
  exact ofSeconds?_ne_zero hs hsize

theorem unlimited_cases (h : p.error? = none) (attempt : ℕ) :
    (p.unlimited attempt).isNaN = true ∨ IsInfinite (p.unlimited attempt) ∨
      ∃ w, HasValue (p.unlimited attempt) w := by
  have hbase := hasValue_seconds p.baseDelay
  obtain hgrowth | ⟨g, _, hgrowth⟩ := growth_atLeastOne h attempt
  · rcases hbase.nonneg.eq_or_lt with hzero | hpos
    · exact .inl ((hzero ▸ hbase).zero_mul_isInfinite hgrowth)
    · exact .inr (.inl (hbase.mul_isInfinite hpos hgrowth))
  · exact .inr ((hbase.mul hgrowth).symm.imp_right fun hu => ⟨_, hu⟩)

/-- Overflow and what is not a number leave the limit; otherwise the smaller number is taken. -/
theorem hasValue_delaySeconds (h : p.error? = none) (attempt : ℕ) :
    ∃ s, HasValue (p.delaySeconds attempt) s ∧
      (2 ^ 64 ≤ s ↔
        2 ^ 64 ≤ p.maxDelay.secondsValue ∧ ¬ p.unlimited attempt < tooManySeconds) := by
  have hlimit := hasValue_seconds p.maxDelay
  obtain hnan | hinfinite | ⟨w, hw⟩ := unlimited_cases h attempt
  · exact ⟨_, hlimit.smaller_of_isNaN hnan, (and_iff_left (not_lt_of_isNaN hnan _)).symm⟩
  · exact ⟨_, hlimit.smaller_of_isInfinite hinfinite,
      (and_iff_left (hinfinite.not_lt hasValue_tooManySeconds)).symm⟩
  · refine ⟨_, hw.smaller hlimit, ?_⟩
    have hreaches : ¬ p.unlimited attempt < tooManySeconds ↔ 2 ^ 64 ≤ w :=
      (not_congr (hw.lt_iff hasValue_tooManySeconds)).trans not_lt
    rw [le_min_iff, hreaches, and_comm]

theorem hasValue_delaySeconds_of_baseDelay_zero (h : p.error? = none) (hbase : p.baseDelay = .zero)
    (attempt : ℕ) :
    HasValue (p.delaySeconds attempt)
      (if (p.growth attempt).isInf then p.maxDelay.secondsValue else 0) := by
  have hlimit := hasValue_seconds p.maxDelay
  have hzero : HasValue p.baseDelay.seconds 0 := by
    have := hasValue_seconds .zero
    rwa [secondsValue_zero, ← hbase] at this
  obtain hgrowth | ⟨g, _, hgrowth⟩ := growth_atLeastOne h attempt
  · have hnan : (p.unlimited attempt).isNaN = true := hzero.zero_mul_isInfinite hgrowth
    rw [hgrowth.isInf, if_pos rfl]
    exact hlimit.smaller_of_isNaN hnan
  · have hsmaller := (hzero.zero_mul hgrowth).smaller hlimit
    rw [min_eq_left hlimit.nonneg] at hsmaller
    rw [hgrowth.isInf, if_neg Bool.false_ne_true]
    exact hsmaller

/-- There is a delay at every attempt, unless the limit is rounded up to `2 ^ 64` seconds and
the delay without a limit does not stay below. -/
theorem delayAfter_missing_iff (h : p.error? = none) (attempt : ℕ) :
    p.delayAfter attempt = none ↔
      2 ^ 64 - 1024 ≤ p.maxDelay.secs ∧ ¬ p.unlimited attempt < tooManySeconds := by
  obtain ⟨s, hs, hsize⟩ := hasValue_delaySeconds h attempt
  rw [delayAfter_eq_none_iff hs, hsize, le_secondsValue_iff]

/-- A policy without a delay to begin with has none at any attempt, unless its growth overflows:
then the delay is no number, and what is taken is the limit. -/
theorem delayAfter_zero_iff (h : p.error? = none) (hbase : p.baseDelay = .zero) (attempt : ℕ) :
    p.delayAfter attempt = some .zero ↔
      p.maxDelay = .zero ∨ (p.growth attempt).isInf = false := by
  have hs := hasValue_delaySeconds_of_baseDelay_zero h hbase attempt
  cases hinf : (p.growth attempt).isInf with
  | false =>
    rw [hinf, if_neg Bool.false_ne_true] at hs
    exact iff_of_true (delayAfter_eq_zero hs) (.inr rfl)
  | true =>
    rw [hinf, if_pos rfl] at hs
    refine ⟨fun hdelay => .inl ?_, fun hlimit => ?_⟩
    · by_contra hne
      exact delayAfter_ne_zero hs (le_secondsValue_of_ne_zero hne) hdelay
    · rw [hlimit.resolve_right (by decide), secondsValue_zero] at hs
      exact delayAfter_eq_zero hs

theorem delayAfter_immediate {maxAttempts : ℕ} (h : 0 < maxAttempts) (attempt : ℕ) :
    (immediate maxAttempts).delayAfter attempt = some .zero := by
  have hone : ¬ (!(1 : Float).isFinite || (1 : Float) < 1) = true := by decide +kernel
  have husable : (immediate maxAttempts).error? = none := by
    rw [error?, immediate, if_neg h.ne', if_neg hone, if_neg (lt_irrefl _)]
  exact (delayAfter_zero_iff husable rfl attempt).mpr (.inl rfl)

/-- Which delays a usable policy has, and when the one it has is none at all. -/
theorem delayAfter_of_usable (h : p.error? = none) (attempt : ℕ) :
    (p.delayAfter attempt = none ↔
      2 ^ 64 - 1024 ≤ p.maxDelay.secs ∧ ¬ p.unlimited attempt < tooManySeconds) ∧
    (p.baseDelay = .zero →
      (p.delayAfter attempt = some .zero ↔
        p.maxDelay = .zero ∨ (p.growth attempt).isInf = false)) :=
  ⟨delayAfter_missing_iff h attempt, fun hbase => delayAfter_zero_iff h hbase attempt⟩

/-- The growth of a policy without a delay to begin with overflows at the third attempt. -/
theorem delayAfter_of_usable_overflow :
    let p : RetryPolicy := ⟨4, .zero, .ofMillis 1000 (by decide), 1e300⟩
    p.error? = none ∧ p.delayAfter 2 = some .zero ∧ p.delayAfter 3 ≠ none ∧
      p.delayAfter 3 ≠ some .zero := by
  intro p
  have h : p.error? = none := by decide +kernel
  refine ⟨h, ((delayAfter_of_usable h 2).2 rfl).mpr (.inr (by decide +kernel)), ?_, ?_⟩
  · exact fun hmissing => absurd ((delayAfter_of_usable h 3).1.mp hmissing).1 (by decide +kernel)
  · exact fun hzero => absurd (((delayAfter_of_usable h 3).2 rfl).mp hzero) (by decide +kernel)

/-- A policy that can be used and has no delay to begin with waits for a second after its third
attempt, and one whose delay is the longest duration has no delay at all. -/
theorem delayAfter_overflow :
    let short : RetryPolicy := ⟨4, .zero, .ofMillis 1000 (by decide), 1e300⟩
    let longest : Duration := ⟨2 ^ 64 - 1, 0, by decide, by decide⟩
    let long : RetryPolicy := ⟨2, longest, longest, 1⟩
    short.error? = none ∧ short.delayAfter 3 = some (.ofMillis 1000 (by decide)) ∧
      long.error? = none ∧ long.delayAfter 1 = none := by
  decide +kernel

end IdentityLedger.RetryPolicy
