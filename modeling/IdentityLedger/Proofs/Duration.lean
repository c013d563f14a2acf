import IdentityLedger.Duration
import IdentityLedger.Proofs.Numeric.Doubles

/-!
# Durations in seconds

The seconds of a duration as a double are rounded at each step. The longest durations round up
to `2 ^ 64` seconds, which no duration has; a double below that is a duration again, and not
zero if it comes from one that is not.
-/
namespace IdentityLedger.Duration
open Numeric

/-- The part of a second, as a double. -/
def partValue (d : Duration) : ℚ := rounded (rounded d.nanos / 1000000000)

def secondsValue (d : Duration) : ℚ := rounded (rounded d.secs + d.partValue)

theorem rounded_billion : rounded 1000000000 = 1000000000 := by
  exact_mod_cast rounded_natCast (n := 1000000000) (by norm_num)

theorem hasValue_billion : HasValue 1e9 1000000000 := by
  have h : (1e9 : Float).toModel.unpack =
      .finite .positive 8388608000000000 (-23) (by decide) := rfl
  rw [HasValue, h]
  exact ⟨⟨by norm_num, by norm_num, .inl (by norm_num)⟩, by norm_num⟩

theorem partValue_nonneg (d : Duration) : 0 ≤ d.partValue :=
  rounded_nonneg (div_nonneg (rounded_nonneg (Nat.cast_nonneg _)) (by norm_num))

theorem partValue_le_one (d : Duration) : d.partValue ≤ 1 := by
  have hnanos : rounded d.nanos ≤ 1000000000 :=
    rounded_le (Nat.cast_nonneg _) rounded_billion (by exact_mod_cast d.nanos_lt.le)
  refine rounded_le (div_nonneg (rounded_nonneg (Nat.cast_nonneg _)) (by norm_num)) rounded_one ?_
  exact (div_le_one (by norm_num)).mpr hnanos

theorem rounded_long : rounded (2 ^ 64 - 1025) = 2 ^ 64 - 2048 :=
  (rounded_eq (k := 63) (n := 2 ^ 53 - 1) (by norm_num) (by norm_num) (by norm_num)
    (by decide +kernel)).trans (by norm_num)

theorem rounded_long_add_one : rounded (2 ^ 64 - 2048 + 1) = 2 ^ 64 - 2048 :=
  (rounded_eq (k := 63) (n := 2 ^ 53 - 1) (by norm_num) (by norm_num) (by norm_num)
    (by decide +kernel)).trans (by norm_num)

theorem rounded_longest : rounded (2 ^ 64 - 1024) = 2 ^ 64 :=
  (rounded_eq (k := 63) (n := 2 ^ 53) (by norm_num) (by norm_num) (by norm_num)
    (by decide +kernel)).trans (by norm_num)

theorem rounded_longest_add_one : rounded (2 ^ 64 + 1) = 2 ^ 64 :=
  (rounded_eq (k := 64) (n := 2 ^ 52) (by norm_num) (by norm_num) (by norm_num)
    (by decide +kernel)).trans (by norm_num)

theorem rounded_two_pow_64 : rounded (2 ^ 64) = 2 ^ 64 := by
  exact_mod_cast rounded_two_zpow (k := 64) (by norm_num)

theorem secondsValue_le_rounded {d : Duration} {q : ℚ} (h : rounded d.secs ≤ q) :
    d.secondsValue ≤ rounded (q + 1) :=
  rounded_mono (add_nonneg (rounded_nonneg (Nat.cast_nonneg _)) d.partValue_nonneg)
    (add_le_add h d.partValue_le_one)

theorem secondsValue_le (d : Duration) : d.secondsValue ≤ 2 ^ 64 := by
  have hsecs : rounded d.secs ≤ 2 ^ 64 :=
    rounded_le (Nat.cast_nonneg _) rounded_two_pow_64 (by exact_mod_cast d.secs_lt.le)
  exact (secondsValue_le_rounded hsecs).trans_eq rounded_longest_add_one

/-- The durations that are rounded up to a number of seconds that no duration has. -/
theorem le_secondsValue_iff (d : Duration) : 2 ^ 64 ≤ d.secondsValue ↔ 2 ^ 64 - 1024 ≤ d.secs := by
  constructor
  · intro h
    by_contra hlt
    have hsecs : (d.secs : ℚ) ≤ 2 ^ 64 - 1025 := by
      rw [le_sub_iff_add_le]
      exact_mod_cast (show d.secs + 1025 ≤ 2 ^ 64 by omega)
    have hrounded := (rounded_mono (Nat.cast_nonneg _) hsecs).trans_eq rounded_long
    have hvalue := (secondsValue_le_rounded hrounded).trans_eq rounded_long_add_one
    exact absurd (h.trans hvalue) (by norm_num)
  · intro h
    have hsecs : (2 ^ 64 - 1024 : ℚ) ≤ d.secs := by
      rw [sub_le_iff_le_add]
      exact_mod_cast (show 2 ^ 64 ≤ d.secs + 1024 by omega)
    have hrounded : 2 ^ 64 ≤ rounded d.secs :=
      rounded_longest.symm.trans_le (rounded_mono (by norm_num) hsecs)
    exact le_rounded (by norm_num) rounded_two_pow_64
      (hrounded.trans (le_add_of_nonneg_right d.partValue_nonneg))

theorem le_secondsValue_of_ne_zero {d : Duration} (h : d ≠ .zero) :
    1 / 1073741824 ≤ d.secondsValue := by
  have hself : rounded (1 / 1073741824) = 1 / 1073741824 := by
    have := rounded_two_zpow (k := -30) (by norm_num)
    norm_num at this ⊢
    exact this
  refine le_rounded (by norm_num) hself ?_
  rcases d.secs.eq_zero_or_pos with hsecs | hsecs
  · have hnanos : 1 ≤ d.nanos := by
      by_contra hzero
      obtain ⟨secs, nanos, _, _⟩ := d
      obtain rfl : secs = 0 := hsecs
      obtain rfl : nanos = 0 := by simpa using hzero
      exact h rfl
    have hrounded : 1 ≤ rounded d.nanos :=
      le_rounded (by norm_num) rounded_one (by exact_mod_cast hnanos)
    have hpart : 1 / 1073741824 ≤ d.partValue :=
      le_rounded (by norm_num) hself
        ((by norm_num : (1 / 1073741824 : ℚ) ≤ 1 / 1000000000).trans
          (div_le_div_of_nonneg_right hrounded (by norm_num)))
    exact hpart.trans (le_add_of_nonneg_left (rounded_nonneg (Nat.cast_nonneg _)))
  · have hrounded : 1 ≤ rounded d.secs :=
      le_rounded (by norm_num) rounded_one (by exact_mod_cast hsecs)
    exact (by norm_num : (1 / 1073741824 : ℚ) ≤ 1).trans
      (hrounded.trans (le_add_of_nonneg_right d.partValue_nonneg))

theorem secondsValue_zero : secondsValue .zero = 0 := by
  simp [secondsValue, partValue, zero]

theorem hasValue_seconds (d : Duration) : HasValue d.seconds d.secondsValue := by
  have hlimit : (2 : ℚ) ^ 64 < 2 ^ 1024 := pow_lt_pow_right₀ (by norm_num) (by norm_num)
  have hnanos : d.nanos < 2 ^ 64 := d.nanos_lt.trans (by decide)
  have hpart := (hasValue_toFloat hnanos).div hasValue_billion (by norm_num)
    ((d.partValue_le_one.trans_lt (by norm_num)).trans hlimit)
  exact (hasValue_toFloat d.secs_lt).add hpart (d.secondsValue_le.trans_lt hlimit)

/-! ## Back to a duration -/

theorem ofParts?_eq_none_iff (n : ℕ) : ofParts? 0 n = none ↔ 2 ^ 64 * nanosPerSecond ≤ n := by
  unfold ofParts?
  split_ifs with h
  · simp only [false_iff]
    unfold nanosPerSecond UInt64.size at h
    unfold nanosPerSecond
    omega
  · simp only [true_iff]
    unfold nanosPerSecond UInt64.size at h
    unfold nanosPerSecond
    omega

theorem ofParts?_ne_zero {n : ℕ} (h : 0 < n) : ofParts? 0 n ≠ some .zero := by
  unfold ofParts?
  split_ifs
  · simp only [zero, ne_eq, Option.some.injEq, mk.injEq]
    unfold nanosPerSecond
    omega
  · exact (Option.some_ne_none _).symm

variable {x : Float} {q : ℚ}

theorem ofSeconds?_eq (hx : HasValue x q) :
    ∃ m : Magnitude, ofSeconds? x = ofParts? 0 (m.roundTimes nanosPerSecond) ∧
      m.mantissa < 2 ^ 53 ∧ q = m.mantissa * 2 ^ m.exponent := by
  obtain ⟨m, hm, hrest⟩ := hx.magnitude?_eq
  exact ⟨m, by rw [ofSeconds?, hm], hrest⟩

/-- Doubles below `2 ^ 64` are not above a whole number below it, so rounding to nanoseconds
does not reach `2 ^ 64` seconds. -/
theorem ofSeconds?_eq_none_iff (hx : HasValue x q) : ofSeconds? x = none ↔ 2 ^ 64 ≤ q := by
  obtain ⟨m, hm, hshort, rfl⟩ := ofSeconds?_eq hx
  rw [hm, ofParts?_eq_none_iff]
  constructor
  · intro h
    by_contra hlt
    obtain ⟨whole, hwhole, hle⟩ := Magnitude.exists_le_lt (n := 2 ^ 64)
      (hshort.trans (by decide)) (by exact_mod_cast not_le.mp hlt)
    have hbelow := h.trans (Magnitude.roundTimes_le hle nanosPerSecond)
    exact absurd (Nat.le_of_mul_le_mul_right hbelow (by decide)) hwhole.not_ge
  · intro h
    exact Magnitude.le_roundTimes (by exact_mod_cast h) nanosPerSecond

theorem ofSeconds?_ne_zero (hx : HasValue x q) (h : 1 / 1073741824 ≤ q) :
    ofSeconds? x ≠ some .zero := by
  obtain ⟨m, hm, _, rfl⟩ := ofSeconds?_eq hx
  rw [hm]
  refine ofParts?_ne_zero ?_
  have hmono : roundEven (1 / 1073741824 * nanosPerSecond) ≤ m.roundTimes nanosPerSecond :=
    (roundEven_mono (mul_le_mul_of_nonneg_right h (Nat.cast_nonneg _))).trans_eq
      (m.roundTimes_eq nanosPerSecond).symm
  have hone : roundEven (1 / 1073741824 * nanosPerSecond) = 1 := by decide +kernel
  omega

end IdentityLedger.Duration
