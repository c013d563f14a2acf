import IdentityLedger.Proofs.Numeric.Denotation

/-!
# Arithmetic on unpacked doubles

Sums, products and quotients of unpacked doubles that stand for numbers stand for the rounded
sums, products and quotients, and comparing the doubles compares the numbers. Each operation
brings the exponent to where rounding by shifts can start.
-/
namespace IdentityLedger.Numeric
open Float.Model Float.Model.UnpackedFloat

variable {u v : UnpackedFloat} {p q : ℚ}

theorem le_spacingExponent {e : ℤ} (h : 2 ^ (e + 52) ≤ q) : e ≤ spacingExponent q := by
  have hq : 0 < q := (two_zpow_pos _).trans_le h
  have : e + 52 ≤ Int.log 2 q :=
    (Int.zpow_le_iff_le_log (by norm_num) hq).mp (by exact_mod_cast h)
  unfold spacingExponent
  omega

/-- Lowering an exponent scales the mantissa up and keeps the number. -/
theorem decreaseExponent_eq {m : ℕ} (hm : 0 < m) (e t : ℤ) :
    ∃ n, decreaseExponent m e t = (n, min e t) ∧ 0 < n ∧ (n : ℚ) * 2 ^ min e t = m * 2 ^ e := by
  have hexponent : e - (e - t).toNat = min e t := by omega
  refine ⟨m * 2 ^ (e - t).toNat, ?_, by positivity, ?_⟩
  · simp only [decreaseExponent, Nat.shiftLeft_eq, hexponent]
  · have hsplit : e = (e - t).toNat + min e t := by omega
    conv_rhs => rw [hsplit, zpow_add₀ (by norm_num), zpow_natCast]
    push_cast
    ring

theorem denotes_zero : Denotes (.zero .positive) 0 := (rfl : (0 : ℚ) = 0)

theorem roundWithAccuracy_exact_denotes {m : ℕ} {e : ℤ} (hm : 0 < m)
    (he : e ≤ spacingExponent (m * 2 ^ e)) :
    Denotes (roundWithAccuracy Format.binary64 .positive m e .exact) (rounded (m * 2 ^ e)) := by
  refine roundWithAccuracy_denotes (mul_pos (by exact_mod_cast hm) (two_zpow_pos e)) he ?_
  rw [mul_div_cancel_right₀ _ (two_zpow_pos e).ne']
  exact represents_exact m

theorem round_denotes {m : ℕ} {e : ℤ} (hm : 0 < m) :
    Denotes (UnpackedFloat.round Format.binary64 .positive m e) (rounded (m * 2 ^ e)) := by
  have hq : 0 < (m : ℚ) * 2 ^ e := mul_pos (by exact_mod_cast hm) (two_zpow_pos e)
  have hunit : (m : ℚ) * 2 ^ e / 2 ^ e = m := mul_div_cancel_right₀ _ (two_zpow_pos e).ne'
  have htarget : Format.binary64.targetExponent (totalExponent m e) =
      spacingExponent (m * 2 ^ e) := by
    rw [targetExponent_eq, spacingExponent_eq hq (fun h => absurd h hm.ne') hunit.ge
      (hunit.trans_lt (lt_add_one _))]
  obtain ⟨n, hn, hpos, hvalue⟩ := decreaseExponent_eq hm e (spacingExponent (m * 2 ^ e))
  simp only [UnpackedFloat.round, htarget, hn]
  have hspacing : min e (spacingExponent (m * 2 ^ e)) ≤
      spacingExponent (n * 2 ^ min e (spacingExponent (m * 2 ^ e))) := by
    rw [hvalue]
    exact min_le_right _ _
  have hrounded := roundWithAccuracy_exact_denotes hpos hspacing
  rwa [hvalue] at hrounded

theorem ofNat_denotes (n : ℕ) : Denotes (UnpackedFloat.ofNat Format.binary64 n) (rounded n) := by
  rcases n.eq_zero_or_pos with rfl | hn
  · rw [Nat.cast_zero, rounded_zero]
    exact denotes_zero
  · have hcompare : compare (n : ℤ) 0 = .gt := Int.compare_eq_gt.mpr (by exact_mod_cast hn)
    simp only [UnpackedFloat.ofNat, UnpackedFloat.ofInt, UnpackedFloat.normalize, hcompare,
      Int.toNat_natCast]
    simpa using round_denotes (e := 0) hn

theorem Denotes.add (hu : Denotes u p) (hv : Denotes v q) :
    Denotes (u.add Format.binary64 v) (rounded (p + q)) := by
  match u, v, hu, hv with
  | .zero .positive, .zero .positive, hu, hv =>
    rw [show p = 0 from hu, show q = 0 from hv, add_zero, rounded_zero]
    exact denotes_zero
  | .zero .positive, .finite .positive m e hm, hu, hv =>
    rw [show p = 0 from hu, zero_add, hv.rounded_eq]
    exact hv
  | .finite .positive m e hm, .zero .positive, hu, hv =>
    rw [show q = 0 from hv, add_zero, hu.rounded_eq]
    exact hu
  | .finite .positive m₁ e₁ hm₁, .finite .positive m₂ e₂ hm₂, ⟨_, hp⟩, ⟨_, hq⟩ =>
    obtain ⟨n₁, h₁, hn₁, hvalue₁⟩ := decreaseExponent_eq hm₁ e₁ (min e₁ e₂)
    obtain ⟨n₂, h₂, hn₂, hvalue₂⟩ := decreaseExponent_eq hm₂ e₂ (min e₁ e₂)
    rw [min_eq_right (min_le_left e₁ e₂)] at hvalue₁
    rw [min_eq_right (min_le_right e₁ e₂)] at hvalue₂
    have hsum : p + q = (n₁ + n₂ : ℕ) * 2 ^ min e₁ e₂ := by
      rw [hp, hq, ← hvalue₁, ← hvalue₂]
      push_cast
      ring
    have hcompare : compare ((n₁ : ℤ) + n₂) 0 = .gt := Int.compare_eq_gt.mpr (by omega)
    simp only [UnpackedFloat.add, h₁, h₂, Sign.apply, UnpackedFloat.normalize, hcompare, hsum]
    exact round_denotes (by omega)

theorem Denotes.mul (hu : Denotes u p) (hv : Denotes v q) :
    Denotes (u.mul Format.binary64 v) (rounded (p * q)) := by
  match u, v, hu, hv with
  | .zero .positive, .zero .positive, hu, _
  | .zero .positive, .finite .positive _ _ _, hu, _ =>
    rw [show p = 0 from hu, zero_mul, rounded_zero]
    exact denotes_zero
  | .finite .positive _ _ _, .zero .positive, _, hv =>
    rw [show q = 0 from hv, mul_zero, rounded_zero]
    exact denotes_zero
  | .finite .positive m₁ e₁ hm₁, .finite .positive m₂ e₂ hm₂, ⟨hc₁, hp⟩, ⟨hc₂, hq⟩ =>
    have hproduct : p * q = (m₁ * m₂ : ℕ) * 2 ^ (e₁ + e₂) := by
      rw [hp, hq, zpow_add₀ (by norm_num)]
      push_cast
      ring
    rw [hproduct]
    refine roundWithAccuracy_exact_denotes (Nat.mul_pos hm₁ hm₂) ?_
    by_cases hfull : 2 ^ 52 ≤ m₁ * m₂
    · refine le_spacingExponent ?_
      rw [add_comm, zpow_add₀ (by norm_num)]
      exact mul_le_mul_of_nonneg_right (by exact_mod_cast hfull) (two_zpow_pos _).le
    · -- Both mantissas lack bits, so both exponents are the least one.
      have h₁ : ¬ 2 ^ 52 ≤ m₁ := fun h => hfull (h.trans (Nat.le_mul_of_pos_right m₁ hm₂))
      have h₂ : ¬ 2 ^ 52 ≤ m₂ := fun h => hfull (h.trans (Nat.le_mul_of_pos_left m₂ hm₁))
      have := hc₁.full.resolve_left h₁
      have := hc₂.full.resolve_left h₂
      exact le_trans (by omega) (le_max_right _ _)

theorem targetExponent_quotient_le {m₁ m₂ : ℕ} (hm₁ : 0 < m₁) (hm₂ : 0 < m₂) (e₁ e₂ : ℤ) :
    Format.binary64.targetExponent (totalExponent m₁ e₁ - totalExponent m₂ e₂) ≤
      spacingExponent (m₁ / m₂ * 2 ^ (e₁ - e₂)) := by
  have hpos₁ : (0 : ℚ) < m₁ := by exact_mod_cast hm₁
  have hpos₂ : (0 : ℚ) < m₂ := by exact_mod_cast hm₂
  rw [Format.targetExponent, totalExponent, totalExponent,
    show (Format.binary64.mantissaBits : ℤ) = 53 by decide,
    show Format.binary64.minExponent = -1074 by decide]
  refine max_le (le_spacingExponent ?_) (le_max_right _ _)
  have hlow : (2 : ℚ) ^ m₁.log2 ≤ m₁ := by exact_mod_cast Nat.log2_self_le hm₁.ne'
  have hhigh : (m₂ : ℚ) ≤ 2 ^ (m₂.log2 + 1) := by exact_mod_cast Nat.lt_log2_self.le
  calc (2 : ℚ) ^ (m₁.log2 + 1 + e₁ - (m₂.log2 + 1 + e₂) - 53 + 52 : ℤ)
      = 2 ^ ((m₁.log2 : ℤ) - (m₂.log2 + 1 : ℕ) + (e₁ - e₂)) := by
        congr 1
        push_cast
        ring
    _ = 2 ^ m₁.log2 / 2 ^ (m₂.log2 + 1) * 2 ^ (e₁ - e₂) := by
        rw [zpow_add₀ (by norm_num), zpow_sub₀ (by norm_num), zpow_natCast, zpow_natCast]
    _ ≤ m₁ / m₂ * 2 ^ (e₁ - e₂) :=
        mul_le_mul_of_nonneg_right (div_le_div₀ hpos₁.le hlow hpos₂ hhigh) (two_zpow_pos _).le

/-- Long division gives the whole part of a quotient, and its remainder the residual bits. -/
theorem divCore_represents {m₁ m₂ : ℕ} (hm₁ : 0 < m₁) (hm₂ : 0 < m₂) (e₁ e₂ : ℤ) :
    ∃ m t accuracy, divCore Format.binary64 m₁ e₁ m₂ e₂ = (m, t, accuracy) ∧
      t ≤ spacingExponent (m₁ / m₂ * 2 ^ (e₁ - e₂)) ∧
      Represents (.ofMantissaAndAccuracy m accuracy) (m₁ / m₂ * 2 ^ (e₁ - e₂) / 2 ^ t) := by
  obtain ⟨t, ht⟩ : ∃ t, t = min (e₁ - e₂)
    (Format.binary64.targetExponent (totalExponent m₁ e₁ - totalExponent m₂ e₂)) := ⟨_, rfl⟩
  obtain ⟨m, hm⟩ : ∃ m, m = m₁ <<< (e₁ - e₂ - t).toNat := ⟨_, rfl⟩
  have hunits : (m₁ : ℚ) / m₂ * 2 ^ (e₁ - e₂) / 2 ^ t = (m / m₂ : ℕ) + (m % m₂ : ℕ) / m₂ := by
    have hpos : (0 : ℚ) < m₂ := by exact_mod_cast hm₂
    have hle : t ≤ e₁ - e₂ := ht ▸ min_le_left _ _
    have hsplit : e₁ - e₂ = (e₁ - e₂ - t).toNat + t := by omega
    have hdivmod : (m : ℚ) = m₂ * (m / m₂ : ℕ) + (m % m₂ : ℕ) := by
      exact_mod_cast (Nat.div_add_mod m m₂).symm
    have hcast : (m : ℚ) = m₁ * 2 ^ (e₁ - e₂ - t).toNat := by
      rw [hm, Nat.shiftLeft_eq]
      norm_cast
    rw [hsplit, zpow_add₀ (by norm_num), zpow_natCast, ← mul_assoc,
      mul_div_cancel_right₀ _ (two_zpow_pos t).ne', div_mul_eq_mul_div, ← hcast, hdivmod]
    field_simp
  refine ⟨m / m₂, t, accuracyOfFraction (m % m₂) m₂, by rw [divCore, ← ht, ← hm],
    (ht.trans_le (min_le_right _ _)).trans (targetExponent_quotient_le hm₁ hm₂ e₁ e₂), ?_⟩
  rw [hunits]
  exact represents_fraction _ (Nat.mod_lt _ hm₂)

theorem Denotes.div (hu : Denotes u p) (hv : Denotes v q) (hq : 0 < q) :
    Denotes (u.div Format.binary64 v) (rounded (p / q)) := by
  match u, v, hu, hv with
  | .zero .positive, .zero .positive, _, hv
  | .finite .positive _ _ _, .zero .positive, _, hv => exact absurd hv hq.ne'
  | .zero .positive, .finite .positive _ _ _, hu, _ =>
    rw [show p = 0 from hu, zero_div, rounded_zero]
    exact denotes_zero
  | .finite .positive m₁ e₁ hm₁, .finite .positive m₂ e₂ hm₂, ⟨_, hp⟩, ⟨_, hq⟩ =>
    have hpos₁ : (0 : ℚ) < m₁ := by exact_mod_cast hm₁
    have hpos₂ : (0 : ℚ) < m₂ := by exact_mod_cast hm₂
    have hquotient : p / q = m₁ / m₂ * 2 ^ (e₁ - e₂) := by
      rw [hp, hq, zpow_sub₀ (by norm_num)]
      exact mul_div_mul_comm _ _ _ _
    obtain ⟨m, t, accuracy, hcore, hspacing, hrepresents⟩ := divCore_represents hm₁ hm₂ e₁ e₂
    simp only [UnpackedFloat.div, hcore, hquotient]
    exact roundWithAccuracy_denotes (mul_pos (div_pos hpos₁ hpos₂) (two_zpow_pos _)) hspacing
      hrepresents

theorem Canonical.lt_of_exponent_lt {m₁ m₂ : ℕ} {e₁ e₂ : ℤ} (h₁ : Canonical m₁ e₁)
    (h₂ : Canonical m₂ e₂) (he : e₁ < e₂) : (m₁ : ℚ) * 2 ^ e₁ < m₂ * 2 ^ e₂ := by
  have hfull : 2 ^ 52 ≤ m₂ := h₂.full.resolve_right (by have := h₁.least; omega)
  calc (m₁ : ℚ) * 2 ^ e₁ < (2 ^ 53 : ℕ) * 2 ^ e₁ :=
        mul_lt_mul_of_pos_right (by exact_mod_cast h₁.short) (two_zpow_pos e₁)
    _ = (2 ^ 52 : ℕ) * 2 ^ (e₁ + 1) := by
        rw [zpow_add_one₀ (by norm_num)]
        push_cast
        ring
    _ ≤ m₂ * 2 ^ e₂ := by
        have := zpow_le_zpow_right₀ (a := (2 : ℚ)) (by norm_num) (Int.add_one_le_iff.mpr he)
        exact mul_le_mul (by exact_mod_cast hfull) this (two_zpow_pos _).le (Nat.cast_nonneg _)

/-- Doubles are compared by exponent, then by mantissa. -/
theorem Denotes.lt_iff (hu : Denotes u p) (hv : Denotes v q) : u.lt v = true ↔ p < q := by
  match u, v, hu, hv with
  | .zero .positive, .zero .positive, hu, hv =>
    rw [show p = 0 from hu, show q = 0 from hv]
    simp [UnpackedFloat.lt, UnpackedFloat.compare]
  | .zero .positive, .finite .positive m e hm, hu, ⟨_, hq⟩ =>
    have : (0 : ℚ) < m * 2 ^ e := mul_pos (by exact_mod_cast hm) (two_zpow_pos e)
    rw [show p = 0 from hu, hq]
    simp [UnpackedFloat.lt, UnpackedFloat.compare, this]
  | .finite .positive m e hm, .zero .positive, ⟨_, hp⟩, hv =>
    have : (0 : ℚ) < m * 2 ^ e := mul_pos (by exact_mod_cast hm) (two_zpow_pos e)
    rw [show q = 0 from hv, hp]
    simp [UnpackedFloat.lt, UnpackedFloat.compare, this.le]
  | .finite .positive m₁ e₁ hm₁, .finite .positive m₂ e₂ hm₂, ⟨hc₁, hp⟩, ⟨hc₂, hq⟩ =>
    rw [hp, hq]
    simp only [UnpackedFloat.lt, UnpackedFloat.compare, beq_iff_eq, Option.some.injEq]
    rcases lt_trichotomy e₁ e₂ with hlt | rfl | hgt
    · simp [Int.compare_eq_lt.mpr hlt, hc₁.lt_of_exponent_lt hc₂ hlt]
    · simp [Nat.compare_eq_lt, mul_lt_mul_iff_left₀ (two_zpow_pos e₁)]
    · simp [Int.compare_eq_gt.mpr hgt, (hc₂.lt_of_exponent_lt hc₁ hgt).le]

end IdentityLedger.Numeric
