import IdentityLedger.Proofs.Numeric.Arithmetic

/-!
# Doubles and the numbers they stand for

A double that is neither negative nor infinite stands for a number, and arithmetic on doubles
is rounded arithmetic on the numbers: from `2 ^ 1024` on the result is infinite. Powers of a
number that is not below one are not below one, or infinite.
-/
namespace IdentityLedger.Numeric
open Float.Model Float.Model.UnpackedFloat

variable {u : UnpackedFloat} {p q : ℚ} {x y : Float}

/-- A double that is neither negative nor infinite stands for a number. -/
def HasValue (x : Float) (q : ℚ) : Prop := Denotes x.toModel.unpack q

def IsInfinite (x : Float) : Prop := x.toModel.unpack = .infinity .positive

theorem Denotes.pack (h : Denotes u q) (hx : x.toModel = Float.Model.pack u) :
    (q < 2 ^ 1024 → HasValue x q) ∧ (2 ^ 1024 ≤ q → IsInfinite x) := by
  have hunpack : x.toModel.unpack =
      UnpackedFloat.unpack Format.binary64 (UnpackedFloat.pack Format.binary64 u) := by
    rw [hx]
    rfl
  unfold HasValue IsInfinite
  rw [hunpack]
  match u, h with
  | .zero .positive, h =>
    refine ⟨fun _ => h, fun hge => absurd (show q = 0 from h) ?_⟩
    exact (lt_of_lt_of_le (by positivity) hge).ne'
  | .finite .positive m e hm, ⟨hc, hq⟩ =>
    constructor
    · intro hlt
      rw [unpack_pack hm hc (hc.exponent_lt_iff.mpr (hq ▸ hlt))]
      exact ⟨hc, hq⟩
    · intro hge
      refine unpack_pack_of_overflow hm (not_lt.mp fun he => ?_)
      exact (hc.exponent_lt_iff.mp he).not_ge (hq ▸ hge)

theorem HasValue.nonneg (hx : HasValue x p) : 0 ≤ p := Denotes.nonneg hx

theorem hasValue_zero : HasValue 0 0 := (rfl : (0 : ℚ) = 0)

theorem hasValue_one : HasValue 1 1 := by
  have h : (1 : Float).toModel.unpack = .finite .positive (2 ^ 52) (-52) (by decide) := rfl
  rw [HasValue, h]
  exact ⟨⟨by norm_num, by norm_num, .inl le_rfl⟩, by norm_num⟩

theorem hasValue_toFloat {n : ℕ} (hn : n < 2 ^ 64) :
    HasValue (UInt64.ofNat n).toFloat (rounded n) := by
  have hmodel : (UInt64.ofNat n).toFloat.toModel =
      Float.Model.pack (UnpackedFloat.ofNat Format.binary64 (UInt64.ofNat n).toNat) := rfl
  rw [UInt64.toNat_ofNat_of_lt' hn] at hmodel
  refine ((ofNat_denotes n).pack hmodel).1 ?_
  have hle : rounded n ≤ 2 ^ (64 : ℤ) :=
    rounded_le (Nat.cast_nonneg n) (rounded_two_zpow (by norm_num)) (by exact_mod_cast hn.le)
  refine hle.trans_lt ?_
  rw [zpow_ofNat]
  exact pow_lt_pow_right₀ (by norm_num) (by norm_num)

theorem HasValue.add (hx : HasValue x p) (hy : HasValue y q) (h : rounded (p + q) < 2 ^ 1024) :
    HasValue (x + y) (rounded (p + q)) :=
  ((Denotes.add hx hy).pack rfl).1 h

theorem HasValue.div (hx : HasValue x p) (hy : HasValue y q) (hq : 0 < q)
    (h : rounded (p / q) < 2 ^ 1024) : HasValue (x / y) (rounded (p / q)) :=
  ((Denotes.div hx hy hq).pack rfl).1 h

/-- A product overflows to infinity. -/
theorem HasValue.mul (hx : HasValue x p) (hy : HasValue y q) :
    HasValue (x * y) (rounded (p * q)) ∨ IsInfinite (x * y) :=
  have hproduct := (Denotes.mul hx hy).pack (x := x * y) rfl
  (lt_or_ge (rounded (p * q)) (2 ^ 1024)).imp hproduct.1 hproduct.2

theorem HasValue.unpack_eq (hx : HasValue x p) :
    (p = 0 ∧ x.toModel.unpack = .zero .positive) ∨
      (0 < p ∧ ∃ m e hm, x.toModel.unpack = .finite .positive m e hm) := by
  unfold HasValue at hx
  match x.toModel.unpack, hx with
  | .zero .positive, h => exact .inl ⟨h, rfl⟩
  | .finite .positive m e hm, ⟨_, h⟩ =>
    exact .inr ⟨h ▸ mul_pos (by exact_mod_cast hm) (two_zpow_pos e), m, e, hm, rfl⟩

theorem toModel_mul (x y : Float) : (x * y).toModel =
    Float.Model.pack (UnpackedFloat.mul Format.binary64 x.toModel.unpack y.toModel.unpack) := rfl

theorem isInfinite_of_toModel (h : x.toModel = Float.Model.pack (.infinity .positive)) :
    IsInfinite x := by
  rw [IsInfinite, h]
  rfl

theorem IsInfinite.mul (hx : IsInfinite x) (hy : IsInfinite y) : IsInfinite (x * y) :=
  isInfinite_of_toModel (by rw [toModel_mul, hx, hy]; rfl)

theorem HasValue.mul_isInfinite (hx : HasValue x p) (hp : 0 < p) (hy : IsInfinite y) :
    IsInfinite (x * y) := by
  obtain ⟨h, _⟩ | ⟨_, m, e, hm, h⟩ := hx.unpack_eq
  · exact absurd h hp.ne'
  · exact isInfinite_of_toModel (by rw [toModel_mul, h, hy, UnpackedFloat.mul]; rfl)

theorem IsInfinite.mul_hasValue (hx : IsInfinite x) (hy : HasValue y q) (hq : 0 < q) :
    IsInfinite (x * y) := by
  obtain ⟨h, _⟩ | ⟨_, m, e, hm, h⟩ := hy.unpack_eq
  · exact absurd h hq.ne'
  · exact isInfinite_of_toModel (by rw [toModel_mul, hx, h, UnpackedFloat.mul]; rfl)

theorem HasValue.zero_mul (hx : HasValue x 0) (hy : HasValue y q) : HasValue (x * y) 0 := by
  have hproduct := Denotes.mul hx hy
  rw [MulZeroClass.zero_mul, rounded_zero] at hproduct
  exact (hproduct.pack rfl).1 (by positivity)

theorem HasValue.zero_mul_isInfinite (hx : HasValue x 0) (hy : IsInfinite y) :
    (x * y).isNaN = true := by
  obtain ⟨_, h⟩ | ⟨hp, _⟩ := hx.unpack_eq
  · rw [Float.isNaN, toModel_mul, h, hy]
    rfl
  · exact absurd hp (lt_irrefl 0)

theorem HasValue.lt_iff (hx : HasValue x p) (hy : HasValue y q) : x < y ↔ p < q :=
  decide_eq_true_iff.trans (Denotes.lt_iff hx hy)

theorem HasValue.lt_isInfinite (hx : HasValue x p) (hy : IsInfinite y) : x < y := by
  refine decide_eq_true_iff.mpr ?_
  change UnpackedFloat.lt x.toModel.unpack y.toModel.unpack = true
  rw [hy]
  obtain ⟨_, h⟩ | ⟨_, m, e, hm, h⟩ := hx.unpack_eq <;> rw [h] <;> rfl

theorem IsInfinite.not_lt (hx : IsInfinite x) (hy : HasValue y q) : ¬ x < y := by
  refine fun hlt => absurd (decide_eq_true_iff.mp hlt) ?_
  change ¬ UnpackedFloat.lt x.toModel.unpack y.toModel.unpack = true
  rw [hx]
  obtain ⟨_, h⟩ | ⟨_, m, e, hm, h⟩ := hy.unpack_eq <;> rw [h] <;> exact Bool.false_ne_true

theorem not_lt_of_isNaN (hx : x.isNaN = true) (y : Float) : ¬ x < y := by
  refine fun hlt => absurd (decide_eq_true_iff.mp hlt) ?_
  change ¬ UnpackedFloat.lt x.toModel.unpack y.toModel.unpack = true
  change x.toModel.unpack.isNaN = true at hx
  match x.toModel.unpack, hx with
  | .notANumber, _ => exact Bool.false_ne_true

theorem HasValue.isFinite (hx : HasValue x p) : x.isFinite = true := by
  change x.toModel.unpack.isFinite = true
  obtain ⟨_, h⟩ | ⟨_, m, e, hm, h⟩ := hx.unpack_eq <;> rw [h] <;> rfl

theorem HasValue.isInf (hx : HasValue x p) : x.isInf = false := by
  change x.toModel.unpack.isInf = false
  obtain ⟨_, h⟩ | ⟨_, m, e, hm, h⟩ := hx.unpack_eq <;> rw [h] <;> rfl

theorem HasValue.isNaN (hx : HasValue x p) : x.isNaN = false := by
  change x.toModel.unpack.isNaN = false
  obtain ⟨_, h⟩ | ⟨_, m, e, hm, h⟩ := hx.unpack_eq <;> rw [h] <;> rfl

theorem IsInfinite.isInf (hx : IsInfinite x) : x.isInf = true := by
  change x.toModel.unpack.isInf = true
  rw [hx]
  rfl

theorem IsInfinite.isNaN (hx : IsInfinite x) : x.isNaN = false := by
  change x.toModel.unpack.isNaN = false
  rw [hx]
  rfl

/-- The magnitude of a finite double has the mantissa and the exponent that unpacking gives. -/
theorem magnitude?_cases (x : Float) :
    (magnitude? x = none ∧ x.isFinite = false) ∨
      ∃ m sign, magnitude? x = some m ∧ Canonical m.mantissa m.exponent ∧
        ((m.mantissa = 0 ∧ x.toModel.unpack = .zero sign) ∨
          ∃ hm, x.toModel.unpack = .finite sign m.mantissa m.exponent hm) := by
  obtain ⟨b, hb⟩ : ∃ b : BitVec Format.binary64.numBits, b = x.toModel.toBits.toBitVec := ⟨_, rfl⟩
  have hunpack : x.toModel.unpack = UnpackedFloat.unpack Format.binary64 b := by rw [hb]; rfl
  have hbits : x.toBits.toNat = b.toNat := by rw [hb]; rfl
  have hexponent : (unpackExponent b).toNat = b.toNat / 2 ^ 52 % 2 ^ 11 := by
    simp [unpackExponent, Nat.shiftRight_eq_div_pow]
  have hmantissa : (unpackMantissa b).toNat = b.toNat % 2 ^ 52 := by simp [unpackMantissa]
  have hbias : Format.binary64.exponentBias = 1023 := by decide
  have hshort : (unpackMantissa b).toNat < 2 ^ 52 := (unpackMantissa b).isLt
  change _ ∧ x.toModel.unpack.isFinite = false ∨ _
  rw [hunpack]
  simp only [magnitude?, Nat.pow_eq, hbits, ← hexponent, ← hmantissa, UnpackedFloat.unpack, hbias]
  by_cases hmax : unpackExponent b = -1#11
  · refine .inl ⟨if_pos (by rw [hmax]; rfl), ?_⟩
    rw [if_pos hmax]
    split_ifs <;> rfl
  have hmax' : (unpackExponent b).toNat ≠ 2047 := fun h => hmax (BitVec.eq_of_toNat_eq h)
  rw [if_neg hmax, if_neg hmax']
  refine .inr ?_
  by_cases hmin : unpackExponent b = 0#11
  · have hcanonical : Canonical (unpackMantissa b).toNat (-1074) := ⟨by omega, le_rfl, .inr rfl⟩
    rw [if_pos hmin, if_pos (by rw [hmin]; rfl), hmin]
    refine ⟨_, Sign.ofBitVec (unpackSign b), rfl, hcanonical, ?_⟩
    split_ifs with hzero
    · exact .inl ⟨by rw [hzero]; rfl, rfl⟩
    · have hpos : 0 < (unpackMantissa b).toNat :=
        Nat.pos_of_ne_zero fun h => hzero (BitVec.eq_of_toNat_eq h)
      exact .inr ⟨hpos, rfl⟩
  · have hmin' : (unpackExponent b).toNat ≠ 0 := fun h => hmin (BitVec.eq_of_toNat_eq h)
    have hcanonical : Canonical (2 ^ 52 + (unpackMantissa b).toNat)
        ((unpackExponent b).toNat - 1075) := ⟨by omega, by omega, .inl (by omega)⟩
    rw [if_neg hmin, if_neg hmin']
    refine ⟨_, Sign.ofBitVec (unpackSign b), rfl, hcanonical, .inr ⟨by positivity, ?_⟩⟩
    simp only [implicit_bit_append]
    rfl

theorem HasValue.magnitude?_eq (hx : HasValue x p) :
    ∃ m, magnitude? x = some m ∧ m.mantissa < 2 ^ 53 ∧ p = m.mantissa * 2 ^ m.exponent := by
  obtain ⟨_, hinfinite⟩ | ⟨m, sign, hm, hcanonical, hunpack⟩ := magnitude?_cases x
  · exact absurd hx.isFinite (by simp [hinfinite])
  · refine ⟨m, hm, hcanonical.short, ?_⟩
    unfold HasValue at hx
    obtain ⟨hzero, hunpack⟩ | ⟨hpos, hunpack⟩ := hunpack <;> rw [hunpack] at hx <;> cases sign
    · exact hx.elim
    · rw [show p = 0 from hx, hzero]
      simp
    · exact hx.elim
    · exact hx.2

/-- What is negative is below one, so a finite double that is not below stands for a number. -/
theorem hasValue_of_not_lt_one (hfinite : x.isFinite = true) (h : ¬ x < 1) :
    ∃ q, 1 ≤ q ∧ HasValue x q := by
  have hone : (1 : Float).toModel.unpack = .finite .positive (2 ^ 52) (-52) (by decide) := rfl
  have hless : ¬ x.toModel.unpack.lt (1 : Float).toModel.unpack = true := fun hlt =>
    h (decide_eq_true_iff.mpr hlt)
  have hvalue : ∃ q, HasValue x q := by
    obtain ⟨_, hinfinite⟩ | ⟨m, sign, _, hcanonical, hunpack⟩ := magnitude?_cases x
    · exact absurd hfinite (by simp [hinfinite])
    obtain ⟨_, hunpack⟩ | ⟨_, hunpack⟩ := hunpack <;> rw [hunpack, hone] at hless <;> cases sign
    · exact absurd rfl hless
    · exact ⟨0, by rw [HasValue, hunpack]; exact denotes_zero⟩
    · exact absurd rfl hless
    · exact ⟨_, by rw [HasValue, hunpack]; exact ⟨hcanonical, rfl⟩⟩
  obtain ⟨q, hq⟩ := hvalue
  exact ⟨q, not_lt.mp fun hlt => h ((hq.lt_iff hasValue_one).mpr hlt), hq⟩

/-! ## Powers -/

/-- One or more, or infinite. -/
def AtLeastOne (x : Float) : Prop := IsInfinite x ∨ ∃ q, 1 ≤ q ∧ HasValue x q

theorem AtLeastOne.mul (hx : AtLeastOne x) (hy : AtLeastOne y) :
    AtLeastOne (x * y) := by
  obtain hx | ⟨p, hp, hx⟩ := hx <;> obtain hy | ⟨q, hq, hy⟩ := hy
  · exact .inl (hx.mul hy)
  · exact .inl (hx.mul_hasValue hy (by linarith))
  · exact .inl (hx.mul_isInfinite (by linarith) hy)
  · refine (hx.mul hy).elim (fun h => .inr ⟨_, ?_, h⟩) .inl
    exact le_rounded zero_le_one rounded_one (one_le_mul_of_one_le_of_one_le hp hq)

/-- Squaring the base and multiplying by it both keep what is one or more. -/
theorem AtLeastOne.powerLoop (rounds : ℕ) {base : Float} (hbase : AtLeastOne base) (exponent : ℕ)
    {result : Float} (hresult : AtLeastOne result) :
    AtLeastOne (powerLoop rounds base exponent result) := by
  induction rounds generalizing base exponent result with
  | zero => exact hresult
  | succ rounds ih =>
    have hnext : AtLeastOne (if exponent % 2 = 1 then result * base else result) := by
      split_ifs
      · exact hresult.mul hbase
      · exact hresult
    rw [Numeric.powerLoop]
    split_ifs at hnext ⊢ <;> first | exact hnext | exact ih (hbase.mul hbase) _ hnext

theorem AtLeastOne.power {base : Float} (h : AtLeastOne base) (exponent : ℕ) :
    AtLeastOne (power base exponent) :=
  h.powerLoop 32 exponent (.inr ⟨1, le_rfl, hasValue_one⟩)

/-! ## The smaller of two doubles -/

theorem HasValue.smaller_of_isNaN (hx : x.isNaN = true) (hy : HasValue y q) :
    HasValue (smaller x y) q := by
  rwa [Numeric.smaller, if_pos hx]

theorem HasValue.smaller_of_isInfinite (hx : IsInfinite x) (hy : HasValue y q) :
    HasValue (smaller x y) q := by
  rwa [Numeric.smaller, hx.isNaN, hy.isNaN, if_neg Bool.false_ne_true, if_neg Bool.false_ne_true,
    if_pos (hy.lt_isInfinite hx)]

theorem HasValue.smaller (hx : HasValue x p) (hy : HasValue y q) :
    HasValue (smaller x y) (min p q) := by
  rw [Numeric.smaller, hx.isNaN, hy.isNaN, if_neg Bool.false_ne_true, if_neg Bool.false_ne_true]
  split_ifs with h
  · rwa [min_eq_right ((hy.lt_iff hx).mp h).le]
  · rwa [min_eq_left (not_lt.mp fun hlt => h ((hy.lt_iff hx).mpr hlt))]

end IdentityLedger.Numeric
