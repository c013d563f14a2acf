import IdentityLedger.Numeric.Binary64
import Mathlib.Algebra.Order.Round
import Mathlib.Data.Int.Log
import Mathlib.Data.Rat.Floor
import Mathlib.Tactic.FieldSimp
import Mathlib.Tactic.Linarith
import Mathlib.Tactic.NormNum
import Mathlib.Tactic.Positivity
import Mathlib.Tactic.Ring

/-!
# Rounding to doubles

The double nearest to a number that is not negative is a whole multiple of a power of two that
depends on the size of the number alone; of two nearest multiples the even one is taken.
Rounding keeps the order of numbers, and it keeps every number with a short mantissa. The
exponent has no limit above here: what overflows is found by comparing the result.
-/
namespace IdentityLedger.Numeric

/-- The nearest whole number, of two the even one. -/
def roundEven (q : ℚ) : ℤ :=
  if 2 * Int.fract q < 1 then ⌊q⌋
  else if 1 < 2 * Int.fract q then ⌊q⌋ + 1
  else if ⌊q⌋ % 2 = 0 then ⌊q⌋
  else ⌊q⌋ + 1

theorem floor_le_roundEven (q : ℚ) : ⌊q⌋ ≤ roundEven q := by
  unfold roundEven
  split_ifs <;> omega

theorem roundEven_le_floor_add_one (q : ℚ) : roundEven q ≤ ⌊q⌋ + 1 := by
  unfold roundEven
  split_ifs <;> omega

@[simp] theorem roundEven_intCast (n : ℤ) : roundEven n = n := by simp [roundEven]

theorem roundEven_mono {p q : ℚ} (h : p ≤ q) : roundEven p ≤ roundEven q := by
  rcases (Int.floor_le_floor h).eq_or_lt with hfloor | hfloor
  · have hfract : Int.fract p ≤ Int.fract q := by
      rw [Int.fract, Int.fract, hfloor]
      exact sub_le_sub_right h _
    rw [roundEven, roundEven, hfloor]
    split_ifs <;> first | omega | linarith
  · calc roundEven p ≤ ⌊p⌋ + 1 := roundEven_le_floor_add_one p
      _ ≤ ⌊q⌋ := hfloor
      _ ≤ roundEven q := floor_le_roundEven q

theorem le_roundEven {n : ℤ} {q : ℚ} (h : n ≤ q) : n ≤ roundEven q :=
  (roundEven_intCast n).symm.trans_le (roundEven_mono h)

theorem roundEven_le {n : ℤ} {q : ℚ} (h : q ≤ n) : roundEven q ≤ n :=
  (roundEven_mono h).trans_eq (roundEven_intCast n)

theorem roundEven_natCast_add (n : ℕ) {rest : ℚ} (h0 : 0 ≤ rest) (h1 : rest < 1) :
    roundEven (n + rest) =
      if 2 * rest < 1 then (n : ℤ) else if 1 < 2 * rest then n + 1 else n + n % 2 := by
  have hfract : Int.fract (n + rest) = rest := by
    rw [Int.fract_natCast_add, Int.fract_eq_self]
    exact ⟨h0, h1⟩
  have hfloor : ⌊n + rest⌋ = n := by
    have hsplit := Int.floor_add_fract (n + rest)
    rw [hfract, add_left_inj] at hsplit
    exact_mod_cast hsplit
  rw [roundEven, hfract, hfloor]
  split_ifs <;> omega

theorem roundQuotient_eq (num : ℕ) {den : ℕ} (hden : 0 < den) :
    (roundQuotient num den : ℤ) = roundEven (num / den) := by
  have hd : (0 : ℚ) < den := by exact_mod_cast hden
  have hsplit : (num : ℚ) / den = (num / den : ℕ) + (num % den : ℕ) / den := by
    rw [eq_comm, add_div' _ _ _ hd.ne', div_left_inj' hd.ne', mul_comm]
    exact_mod_cast Nat.div_add_mod num den
  have hrest : ((num % den : ℕ) : ℚ) / den < 1 :=
    (div_lt_one hd).mpr (by exact_mod_cast Nat.mod_lt _ hden)
  have hlt : 2 * (((num % den : ℕ) : ℚ) / den) < 1 ↔ 2 * (num % den) < den := by
    rw [← mul_div_assoc, div_lt_one hd]
    exact_mod_cast Iff.rfl
  have hgt : 1 < 2 * (((num % den : ℕ) : ℚ) / den) ↔ den < 2 * (num % den) := by
    rw [← mul_div_assoc, one_lt_div hd]
    exact_mod_cast Iff.rfl
  rw [hsplit, roundEven_natCast_add _ (by positivity) hrest, roundQuotient]
  simp only [hlt, hgt]
  split_ifs <;> omega

theorem Magnitude.roundTimes_eq (m : Magnitude) (factor : ℕ) :
    (m.roundTimes factor : ℤ) = roundEven (m.mantissa * 2 ^ m.exponent * factor) := by
  simp only [Magnitude.roundTimes, Nat.pow_eq]
  split_ifs with h
  · obtain ⟨e, he⟩ := Int.eq_ofNat_of_zero_le h
    have : (m.mantissa : ℚ) * 2 ^ m.exponent * factor =
        ((m.mantissa * factor * 2 ^ e : ℕ) : ℤ) := by
      rw [he]
      push_cast
      rw [zpow_natCast]
      ring
    rw [this, roundEven_intCast, he, Int.toNat_natCast]
  · obtain ⟨e, he⟩ := Int.eq_ofNat_of_zero_le (show 0 ≤ -m.exponent by omega)
    have : (m.mantissa : ℚ) * 2 ^ m.exponent * factor =
        (m.mantissa * factor : ℕ) / (2 ^ e : ℕ) := by
      rw [show m.exponent = -(e : ℤ) by omega, zpow_neg, zpow_natCast]
      push_cast
      ring
    rw [this, roundQuotient_eq _ (by positivity), he, Int.toNat_natCast]

theorem Magnitude.le_roundTimes {m : Magnitude} {n : ℕ}
    (h : (n : ℚ) ≤ m.mantissa * 2 ^ m.exponent) (factor : ℕ) : n * factor ≤ m.roundTimes factor := by
  have hle : ((n * factor : ℕ) : ℤ) ≤ (m.mantissa : ℚ) * 2 ^ m.exponent * factor := by
    push_cast
    exact mul_le_mul_of_nonneg_right h (Nat.cast_nonneg _)
  exact_mod_cast (le_roundEven hle).trans_eq (m.roundTimes_eq factor).symm

theorem Magnitude.roundTimes_le {m : Magnitude} {n : ℕ}
    (h : m.mantissa * 2 ^ m.exponent ≤ (n : ℚ)) (factor : ℕ) : m.roundTimes factor ≤ n * factor := by
  have hle : (m.mantissa : ℚ) * 2 ^ m.exponent * factor ≤ ((n * factor : ℕ) : ℤ) := by
    push_cast
    exact mul_le_mul_of_nonneg_right h (Nat.cast_nonneg _)
  exact_mod_cast (m.roundTimes_eq factor).trans_le (roundEven_le hle)

/-- A magnitude is a whole number, or it is not above its mantissa. -/
theorem Magnitude.exists_le_lt {m : Magnitude} {n : ℕ} (hshort : m.mantissa < n)
    (h : m.mantissa * 2 ^ m.exponent < (n : ℚ)) :
    ∃ whole < n, (m.mantissa : ℚ) * 2 ^ m.exponent ≤ whole := by
  rcases le_or_gt 0 m.exponent with hexponent | hexponent
  · obtain ⟨e, he⟩ := Int.eq_ofNat_of_zero_le hexponent
    rw [he, zpow_natCast] at h ⊢
    exact ⟨m.mantissa * 2 ^ e, by exact_mod_cast h, by push_cast; rfl⟩
  · exact ⟨m.mantissa, hshort, mul_le_of_le_one_right (Nat.cast_nonneg _)
      (zpow_le_one_of_nonpos₀ (by norm_num) hexponent.le)⟩

/-- The exponent of the distance between the doubles of the size of a number. -/
def spacingExponent (q : ℚ) : ℤ := max (Int.log 2 q - 52) (-1074)

/-- The double nearest to a number that is not negative, of two the even one. -/
def rounded (q : ℚ) : ℚ := roundEven (q / 2 ^ spacingExponent q) * 2 ^ spacingExponent q

@[simp] theorem rounded_zero : rounded 0 = 0 := by
  have : roundEven 0 = 0 := by exact_mod_cast roundEven_intCast 0
  simp [rounded, this]

theorem two_zpow_pos (k : ℤ) : (0 : ℚ) < 2 ^ k := zpow_pos (by norm_num) k

theorem lt_two_zpow_spacingExponent (q : ℚ) : q < 2 ^ 53 * 2 ^ spacingExponent q := by
  have h : q < 2 ^ (Int.log 2 q + 1) := by
    exact_mod_cast Int.lt_zpow_succ_log_self (b := 2) (by norm_num) q
  refine h.trans_le ?_
  rw [← zpow_natCast, ← zpow_add₀ (by norm_num)]
  refine zpow_le_zpow_right₀ (by norm_num) ?_
  unfold spacingExponent
  omega

theorem two_zpow_spacingExponent_le {q : ℚ} (hq : 0 < q) (h : spacingExponent q ≠ -1074) :
    2 ^ 52 * 2 ^ spacingExponent q ≤ q := by
  have hsize : ((52 : ℕ) : ℤ) + spacingExponent q = Int.log 2 q := by
    unfold spacingExponent at h ⊢
    omega
  rw [← zpow_natCast, ← zpow_add₀ (by norm_num), hsize]
  exact_mod_cast Int.zpow_log_le_self (b := 2) (by norm_num) hq

theorem le_rounded_of_multiple {n : ℤ} {q : ℚ} (h : n * 2 ^ spacingExponent q ≤ q) :
    n * 2 ^ spacingExponent q ≤ rounded q := by
  have : n ≤ roundEven (q / 2 ^ spacingExponent q) :=
    le_roundEven ((le_div_iff₀ (two_zpow_pos _)).mpr h)
  exact mul_le_mul_of_nonneg_right (by exact_mod_cast this) (two_zpow_pos _).le

theorem rounded_le_of_multiple {n : ℤ} {q : ℚ} (h : q ≤ n * 2 ^ spacingExponent q) :
    rounded q ≤ n * 2 ^ spacingExponent q := by
  have : roundEven (q / 2 ^ spacingExponent q) ≤ n :=
    roundEven_le ((div_le_iff₀ (two_zpow_pos _)).mpr h)
  exact mul_le_mul_of_nonneg_right (by exact_mod_cast this) (two_zpow_pos _).le

/-- A whole multiple of a power of two is one of every smaller power of two. -/
theorem exists_eq_mul_two_zpow (n : ℤ) {j k : ℤ} (h : j ≤ k) :
    ∃ m : ℤ, (n : ℚ) * 2 ^ k = m * 2 ^ j := by
  refine ⟨n * 2 ^ (k - j).toNat, ?_⟩
  have hk : k = (k - j).toNat + j := by omega
  conv_lhs => rw [hk, zpow_add₀ (by norm_num), zpow_natCast]
  push_cast
  ring

theorem rounded_eq_self {m : ℕ} {e : ℤ} (hm : m < 2 ^ 53) (he : -1074 ≤ e) :
    rounded (m * 2 ^ e) = m * 2 ^ e := by
  rcases m.eq_zero_or_pos with rfl | hpos
  · simp
  have hq : (0 : ℚ) < m * 2 ^ e := mul_pos (by exact_mod_cast hpos) (two_zpow_pos e)
  have hspacing : spacingExponent (m * 2 ^ e) ≤ e := by
    have hlt : (m : ℚ) * 2 ^ e < (2 : ℕ) ^ (53 + e) := by
      push_cast
      rw [zpow_add₀ (by norm_num)]
      exact mul_lt_mul_of_pos_right (by exact_mod_cast hm) (two_zpow_pos e)
    have := (Int.lt_zpow_iff_log_lt (by norm_num) hq).mp hlt
    exact max_le (by omega) he
  obtain ⟨n, hn⟩ := exists_eq_mul_two_zpow m hspacing
  simp only [Int.cast_natCast] at hn
  exact le_antisymm ((rounded_le_of_multiple hn.le).trans_eq hn.symm)
    (hn.trans_le (le_rounded_of_multiple hn.ge))

theorem rounded_two_zpow {k : ℤ} (hk : -1074 ≤ k) : rounded (2 ^ k) = 2 ^ k := by
  simpa using rounded_eq_self (m := 1) (by norm_num) hk

theorem rounded_natCast {n : ℕ} (hn : n < 2 ^ 53) : rounded n = n := by
  simpa using rounded_eq_self hn (e := 0) (by norm_num)

theorem rounded_one : rounded 1 = 1 := by
  exact_mod_cast rounded_natCast (n := 1) (by norm_num)

theorem rounded_nonneg {q : ℚ} (h : 0 ≤ q) : 0 ≤ rounded q := by
  simpa using le_rounded_of_multiple (n := 0) (by simpa using h)

/-- Between numbers of different sizes there is a power of two that both spacings divide. -/
theorem rounded_mono {p q : ℚ} (hp : 0 ≤ p) (h : p ≤ q) : rounded p ≤ rounded q := by
  rcases hp.eq_or_lt with rfl | hpos
  · simpa using rounded_nonneg h
  have hlog : Int.log 2 p ≤ Int.log 2 q := Int.log_mono_right hpos h
  rcases (max_le_max_right (-1074) (sub_le_sub_right hlog 52)).eq_or_lt with heq | hlt
  · change spacingExponent p = spacingExponent q at heq
    rw [rounded, rounded, heq]
    have : roundEven (p / 2 ^ spacingExponent q) ≤ roundEven (q / 2 ^ spacingExponent q) :=
      roundEven_mono (div_le_div_of_nonneg_right h (two_zpow_pos _).le)
    exact mul_le_mul_of_nonneg_right (by exact_mod_cast this) (two_zpow_pos _).le
  · change spacingExponent p < spacingExponent q at hlt
    have hsize : spacingExponent q + 52 = Int.log 2 q := by
      unfold spacingExponent at hlt ⊢
      omega
    have hless : Int.log 2 p < spacingExponent q + 52 := by
      unfold spacingExponent at hlt ⊢
      omega
    have hbelow : p ≤ 2 ^ (spacingExponent q + 52) := by
      have := (Int.lt_zpow_iff_log_lt (b := 2) (by norm_num) hpos).mpr hless
      exact_mod_cast this.le
    have habove : (2 : ℚ) ^ (spacingExponent q + 52) ≤ q := by
      rw [hsize]
      exact_mod_cast Int.zpow_log_le_self (b := 2) (by norm_num) (hpos.trans_le h)
    obtain ⟨n, hn⟩ := exists_eq_mul_two_zpow 1
      (show spacingExponent p ≤ spacingExponent q + 52 by omega)
    obtain ⟨m, hm⟩ := exists_eq_mul_two_zpow 1
      (show spacingExponent q ≤ spacingExponent q + 52 by omega)
    simp only [Int.cast_one, one_mul] at hn hm
    calc rounded p ≤ n * 2 ^ spacingExponent p := rounded_le_of_multiple (hbelow.trans_eq hn)
      _ = m * 2 ^ spacingExponent q := hn.symm.trans hm
      _ ≤ rounded q := le_rounded_of_multiple (hm.symm.trans_le habove)

theorem rounded_eq {q : ℚ} {k n : ℤ} (hk : -1022 ≤ k) (hlow : 2 ^ k ≤ q) (hhigh : q < 2 ^ (k + 1))
    (hn : roundEven (q / 2 ^ (k - 52)) = n) : rounded q = n * 2 ^ (k - 52) := by
  have hq : 0 < q := (two_zpow_pos k).trans_le hlow
  have hlow : k ≤ Int.log 2 q :=
    (Int.zpow_le_iff_le_log (by norm_num) hq).mp (by exact_mod_cast hlow)
  have hhigh : Int.log 2 q < k + 1 :=
    (Int.lt_zpow_iff_log_lt (by norm_num) hq).mp (by exact_mod_cast hhigh)
  have hspacing : spacingExponent q = k - 52 := by
    unfold spacingExponent
    omega
  rw [rounded, hspacing, hn]

theorem le_rounded {p q : ℚ} (hp : 0 ≤ p) (hself : rounded p = p) (h : p ≤ q) : p ≤ rounded q :=
  hself.symm.trans_le (rounded_mono hp h)

theorem rounded_le {p q : ℚ} (hp : 0 ≤ p) (hself : rounded q = q) (h : p ≤ q) : rounded p ≤ q :=
  (rounded_mono hp h).trans_eq hself

end IdentityLedger.Numeric
