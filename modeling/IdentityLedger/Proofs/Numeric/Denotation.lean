import IdentityLedger.Proofs.Numeric.Rounding
import Mathlib

/-!
# What a double stands for

The core library computes with unpacked doubles: a whole mantissa and a power of two. Those
that are not negative stand for a number. Its rounding, by shifts that keep a round bit and a
sticky bit, is rounding of the number, and packing loses nothing below `2 ^ 1024`.
-/
namespace IdentityLedger.Numeric
open Float.Model Float.Model.UnpackedFloat

/-! ## Shifting -/

/-- The mantissa is the whole part of the number. The round bit is worth a half, and the
sticky bit says that something smaller than a half is left. -/
def Represents (em : ExtendedMantissa) (x : ℚ) : Prop :=
  ∃ rest : ℚ, 0 ≤ rest ∧ rest < 1 ∧ (em.stickyBit = true ↔ rest ≠ 0) ∧
    x = em.mantissa + (em.roundBit.toNat + rest) / 2

theorem represents_exact (m : ℕ) : Represents (.ofMantissaAndAccuracy m .exact) m :=
  ⟨0, le_rfl, one_pos, by simp [ExtendedMantissa.ofMantissaAndAccuracy],
    by simp [ExtendedMantissa.ofMantissaAndAccuracy]⟩

theorem represents_fraction (m : ℕ) {r d : ℕ} (hr : r < d) :
    Represents (.ofMantissaAndAccuracy m (accuracyOfFraction r d)) (m + r / d) := by
  have hd : (0 : ℚ) < d := by exact_mod_cast Nat.zero_lt_of_lt hr
  have hr' : (r : ℚ) < d := by exact_mod_cast hr
  by_cases h0 : r = 0
  · simpa [h0, accuracyOfFraction] using represents_exact m
  have hpos : (0 : ℚ) < r := by exact_mod_cast Nat.pos_of_ne_zero h0
  rw [accuracyOfFraction, if_neg h0]
  rcases lt_trichotomy (2 * r) d with hlt | heq | hgt
  · have hlt' : 2 * (r : ℚ) < d := by exact_mod_cast hlt
    rw [Nat.compare_eq_lt.mpr hlt]
    refine ⟨2 * r / d, by positivity, (div_lt_one hd).mpr hlt', ?_, ?_⟩
    · simp [ExtendedMantissa.ofMantissaAndAccuracy, h0, hd.ne']
    · simp only [ExtendedMantissa.ofMantissaAndAccuracy, Bool.toNat_false]
      ring
  · have heq' : 2 * (r : ℚ) = d := by exact_mod_cast heq
    rw [Nat.compare_eq_eq.mpr heq]
    refine ⟨0, le_rfl, one_pos, by simp [ExtendedMantissa.ofMantissaAndAccuracy], ?_⟩
    simp only [ExtendedMantissa.ofMantissaAndAccuracy, Bool.toNat_true, Nat.cast_one, ← heq']
    field_simp
    ring
  · have hgt' : (d : ℚ) < 2 * r := by exact_mod_cast hgt
    rw [Nat.compare_eq_gt.mpr hgt]
    refine ⟨2 * r / d - 1, ?_, ?_, ?_, ?_⟩
    · rw [sub_nonneg, one_le_div hd]
      exact hgt'.le
    · rw [sub_lt_iff_lt_add, div_lt_iff₀ hd]
      linarith
    · simp only [ExtendedMantissa.ofMantissaAndAccuracy, true_iff, sub_ne_zero]
      rw [ne_eq, div_eq_one_iff_eq hd.ne']
      exact hgt'.ne'
    · simp only [ExtendedMantissa.ofMantissaAndAccuracy, Bool.toNat_true]
      ring

theorem Represents.shiftRightOne {em : ExtendedMantissa} {x : ℚ} (h : Represents em x) :
    Represents em.shiftRightOne (x / 2) := by
  obtain ⟨rest, h0, h1, hsticky, rfl⟩ := h
  have hbit : ((em.roundBit.toNat : ℕ) : ℚ) ≤ 1 := by exact_mod_cast Bool.toNat_le _
  refine ⟨(em.roundBit.toNat + rest) / 2, by positivity, by linarith, ?_, ?_⟩
  · have hsum : (em.roundBit.toNat : ℚ) + rest = 0 ↔ em.roundBit = false ∧ rest = 0 := by
      rw [add_eq_zero_iff_of_nonneg (by positivity) h0]
      simp
    simp only [ExtendedMantissa.shiftRightOne, Bool.or_eq_true, hsticky, ne_eq, div_eq_zero_iff,
      hsum]
    cases em.roundBit <;> simp
  · have hmod : ((em.mantissa % 2 != 0).toNat : ℚ) = (em.mantissa % 2 : ℕ) := by
      rcases Nat.mod_two_eq_zero_or_one em.mantissa with h | h <;> simp [h]
    have hsplit : (em.mantissa : ℚ) = 2 * (em.mantissa / 2 : ℕ) + (em.mantissa % 2 : ℕ) := by
      exact_mod_cast (Nat.div_add_mod em.mantissa 2).symm
    simp only [ExtendedMantissa.shiftRightOne, hmod]
    rw [hsplit]
    ring

theorem Represents.shiftRight {em : ExtendedMantissa} {x : ℚ} (h : Represents em x) (n : ℕ) :
    Represents (em >>> n) (x / 2 ^ n) := by
  change Represents (n.repeat ExtendedMantissa.shiftRightOne em) _
  induction n with
  | zero => simpa [Nat.repeat] using h
  | succ n ih =>
    have := ih.shiftRightOne
    rwa [div_div, ← pow_succ] at this

theorem Represents.mantissa_le {em : ExtendedMantissa} {x : ℚ} (h : Represents em x) :
    em.mantissa ≤ x := by
  obtain ⟨rest, h0, _, _, rfl⟩ := h
  exact le_add_of_nonneg_right (by positivity)

theorem Represents.lt_mantissa_add_one {em : ExtendedMantissa} {x : ℚ} (h : Represents em x) :
    x < em.mantissa + 1 := by
  obtain ⟨rest, _, h1, _, rfl⟩ := h
  have hbit : ((em.roundBit.toNat : ℕ) : ℚ) ≤ 1 := by exact_mod_cast Bool.toNat_le _
  linarith

theorem Represents.roundedMantissa_eq {em : ExtendedMantissa} {x : ℚ} (h : Represents em x) :
    (em.roundedMantissa : ℤ) = roundEven x := by
  obtain ⟨rest, h0, h1, hsticky, rfl⟩ := h
  have hbit : ((em.roundBit.toNat : ℕ) : ℚ) ≤ 1 := by exact_mod_cast Bool.toNat_le _
  rw [roundEven_natCast_add _ (by positivity) (by linarith), mul_div_cancel₀ _ two_ne_zero]
  rcases em with ⟨m, _ | _, _ | _⟩ <;>
    simp only [Bool.toNat_false, Bool.toNat_true, true_iff, false_iff, Bool.false_eq_true,
      not_not, ne_eq, Nat.cast_zero, Nat.cast_one, zero_add] at hsticky ⊢ <;>
    simp only [ExtendedMantissa.roundedMantissa, ExtendedMantissa.accuracy,
      Accuracy.roundToNearestEven]
  · rw [hsticky, if_pos one_pos]
  · rw [if_pos h1]
  · rw [hsticky, add_zero, if_neg (lt_irrefl _), if_neg (lt_irrefl _)]
    omega
  · have hpos : 0 < rest := lt_of_le_of_ne h0 (Ne.symm hsticky)
    rw [if_neg (by linarith), if_pos (by linarith)]
    omega

/-! ## Unpacked doubles -/

/-- A mantissa and an exponent as a double has them: the mantissa is short, and it has all
its bits unless the exponent is the least one. -/
structure Canonical (m : ℕ) (e : ℤ) : Prop where
  short : m < 2 ^ 53
  least : -1074 ≤ e
  full : 2 ^ 52 ≤ m ∨ e = -1074

/-- An unpacked double that is neither negative nor infinite stands for a number. -/
def Denotes : UnpackedFloat → ℚ → Prop
  | .zero .positive, q => q = 0
  | .finite .positive m e _, q => Canonical m e ∧ q = m * 2 ^ e
  | _, _ => False

theorem Denotes.nonneg {u : UnpackedFloat} {q : ℚ} (h : Denotes u q) : 0 ≤ q := by
  match u, h with
  | .zero .positive, h => exact h.ge
  | .finite .positive m e _, ⟨_, h⟩ =>
    rw [h]
    exact mul_nonneg (Nat.cast_nonneg m) (two_zpow_pos e).le

theorem Denotes.rounded_eq {u : UnpackedFloat} {q : ℚ} (h : Denotes u q) : rounded q = q := by
  match u, h with
  | .zero .positive, h => rw [show q = 0 from h, rounded_zero]
  | .finite .positive m e _, ⟨hc, h⟩ => rw [h, rounded_eq_self hc.short hc.least]

/-! ## Rounding -/

theorem targetExponent_eq (m : ℕ) (e : ℤ) :
    Format.binary64.targetExponent (totalExponent m e) = max (m.log2 + e - 52) (-1074) := by
  have hbits : (Format.binary64.mantissaBits : ℤ) = 53 := by decide
  have hleast : Format.binary64.minExponent = -1074 := by decide
  rw [Format.targetExponent, totalExponent, hbits, hleast]
  congr 1
  ring

theorem spacingExponent_eq {m : ℕ} {e : ℤ} {q : ℚ} (hq : 0 < q)
    (he : m = 0 → e ≤ spacingExponent q)
    (hlow : m ≤ q / 2 ^ e) (hhigh : q / 2 ^ e < m + 1) :
    spacingExponent q = max (m.log2 + e - 52) (-1074) := by
  rw [le_div_iff₀ (two_zpow_pos e)] at hlow
  rw [div_lt_iff₀ (two_zpow_pos e)] at hhigh
  rcases m.eq_zero_or_pos with rfl | hm
  · have hlt : q < (2 : ℕ) ^ e := by simpa using hhigh
    have := (Int.lt_zpow_iff_log_lt (by norm_num) hq).mp hlt
    have := he rfl
    unfold spacingExponent at this ⊢
    simp only [Nat.log2_zero]
    omega
  · have hge : ((2 : ℕ) : ℚ) ^ (m.log2 + e : ℤ) ≤ q := by
      refine le_trans ?_ hlow
      push_cast
      rw [zpow_add₀ (by norm_num), zpow_natCast]
      exact mul_le_mul_of_nonneg_right (by exact_mod_cast Nat.log2_self_le hm.ne')
        (two_zpow_pos e).le
    have hlt : q < ((2 : ℕ) : ℚ) ^ (m.log2 + 1 + e : ℤ) := by
      refine hhigh.trans_le ?_
      push_cast
      rw [zpow_add₀ (by norm_num), zpow_add_one₀ (by norm_num), zpow_natCast, ← pow_succ]
      exact mul_le_mul_of_nonneg_right (by exact_mod_cast Nat.lt_log2_self) (two_zpow_pos e).le
    have := (Int.zpow_le_iff_le_log (by norm_num) hq).mp hge
    have := (Int.lt_zpow_iff_log_lt (by norm_num) hq).mp hlt
    unfold spacingExponent
    omega

/-- Shifting goes exactly as far as the spacing of the doubles says. -/
theorem shiftToTargetExponent_eq {m : ℕ} {e : ℤ} {accuracy : Accuracy} {q : ℚ} (hq : 0 < q)
    (he : e ≤ spacingExponent q)
    (h : Represents (.ofMantissaAndAccuracy m accuracy) (q / 2 ^ e)) :
    ∃ em, shiftToTargetExponent Format.binary64 m e accuracy = (em, spacingExponent q) ∧
      Represents em (q / 2 ^ spacingExponent q) := by
  have hm : (ExtendedMantissa.ofMantissaAndAccuracy m accuracy).mantissa = m := by
    rcases accuracy with _ | _ | _ | _ <;> rfl
  have hlow := hm ▸ h.mantissa_le
  have hhigh := hm ▸ h.lt_mantissa_add_one
  have htarget := (targetExponent_eq m e).trans
    (spacingExponent_eq hq (fun _ => he) hlow hhigh).symm
  have hshift : e + (spacingExponent q - e).toNat = spacingExponent q := by omega
  refine ⟨ExtendedMantissa.ofMantissaAndAccuracy m accuracy >>> (spacingExponent q - e).toNat,
    ?_, ?_⟩
  · simp only [shiftToTargetExponent, shiftToExponent, htarget, hshift]
  · have := h.shiftRight (spacingExponent q - e).toNat
    rwa [div_div, ← zpow_natCast, ← zpow_add₀ (by norm_num), hshift] at this

/-- A rounded mantissa is shifted once more if it has grown by a bit. -/
theorem shiftToTargetExponent_rounded {m : ℕ} {e : ℤ} (hm : m ≤ 2 ^ 53) (he : -1074 ≤ e) :
    shiftToTargetExponent Format.binary64 m e .exact =
      if m = 2 ^ 53 then (⟨2 ^ 52, false, false⟩, e + 1) else (⟨m, false, false⟩, e) := by
  rw [shiftToTargetExponent, targetExponent_eq]
  split_ifs with h
  · subst h
    have : (max (((2 ^ 53 : ℕ).log2 : ℤ) + e - 52) (-1074) - e).toNat = 1 := by
      rw [Nat.log2_two_pow]
      omega
    simp only [shiftToExponent, this]
    rfl
  · have hlog : m.log2 < 53 := by
      rcases m.eq_zero_or_pos with rfl | hpos
      · decide
      · exact (Nat.log2_lt hpos.ne').mpr (lt_of_le_of_ne hm h)
    have : (max ((m.log2 : ℤ) + e - 52) (-1074) - e).toNat = 0 := by omega
    simp only [shiftToExponent, this, Nat.cast_zero, add_zero]
    rfl

/-- Rounding by shifts is rounding to the nearest double. -/
theorem roundWithAccuracy_denotes {m : ℕ} {e : ℤ} {accuracy : Accuracy} {q : ℚ} (hq : 0 < q)
    (he : e ≤ spacingExponent q)
    (h : Represents (.ofMantissaAndAccuracy m accuracy) (q / 2 ^ e)) :
    Denotes (roundWithAccuracy Format.binary64 .positive m e accuracy) (rounded q) := by
  obtain ⟨em, hshift, hem⟩ := shiftToTargetExponent_eq hq he h
  have hround : (em.roundedMantissa : ℤ) = roundEven (q / 2 ^ spacingExponent q) :=
    hem.roundedMantissa_eq
  have hleast : -1074 ≤ spacingExponent q := le_max_right _ _
  have hlong : em.roundedMantissa ≤ 2 ^ 53 := by
    have : q / 2 ^ spacingExponent q ≤ ((2 ^ 53 : ℤ) : ℚ) := by
      rw [div_le_iff₀ (two_zpow_pos _)]
      exact_mod_cast (lt_two_zpow_spacingExponent q).le
    have := roundEven_le this
    omega
  have hfull : 2 ^ 52 ≤ em.roundedMantissa ∨ spacingExponent q = -1074 := by
    refine or_iff_not_imp_right.mpr fun hne => ?_
    have : ((2 ^ 52 : ℤ) : ℚ) ≤ q / 2 ^ spacingExponent q := by
      rw [le_div_iff₀ (two_zpow_pos _)]
      exact_mod_cast two_zpow_spacingExponent_le hq hne
    have := le_roundEven this
    omega
  have hvalue : rounded q = em.roundedMantissa * 2 ^ spacingExponent q := by
    rw [rounded, ← hround]
    norm_cast
  simp only [roundWithAccuracy, hshift, shiftToTargetExponent_rounded hlong hleast]
  by_cases hgrown : em.roundedMantissa = 2 ^ 53
  · simp only [if_pos hgrown]
    refine ⟨⟨by norm_num, by omega, .inl le_rfl⟩, ?_⟩
    rw [hvalue, hgrown, zpow_add_one₀ (by norm_num)]
    push_cast
    ring
  · simp only [if_neg hgrown]
    split_ifs with hzero
    · simp [Denotes, hvalue, hzero]
    · exact ⟨⟨lt_of_le_of_ne hlong hgrown, hleast, hfull⟩, hvalue⟩

/-! ## Packing -/

theorem Canonical.exponent_lt_iff {m : ℕ} {e : ℤ} (h : Canonical m e) :
    e < 972 ↔ (m : ℚ) * 2 ^ e < 2 ^ 1024 := by
  rw [← zpow_natCast 2 1024]
  constructor
  · intro he
    calc (m : ℚ) * 2 ^ e < (2 ^ 53 : ℕ) * 2 ^ e :=
          mul_lt_mul_of_pos_right (by exact_mod_cast h.short) (two_zpow_pos e)
      _ = 2 ^ (53 + e) := by rw [zpow_add₀ (by norm_num)]; norm_cast
      _ ≤ 2 ^ ((1024 : ℕ) : ℤ) := zpow_le_zpow_right₀ (by norm_num) (by norm_num; omega)
  · refine lt_imp_lt_of_le_imp_le fun he => ?_
    have hm : 2 ^ 52 ≤ m := h.full.resolve_right (by omega)
    calc (2 : ℚ) ^ ((1024 : ℕ) : ℤ) ≤ 2 ^ (52 + e) :=
          zpow_le_zpow_right₀ (by norm_num) (by norm_num; omega)
      _ = (2 ^ 52 : ℕ) * 2 ^ e := by rw [zpow_add₀ (by norm_num)]; norm_cast
      _ ≤ m * 2 ^ e := mul_le_mul_of_nonneg_right (by exact_mod_cast hm) (two_zpow_pos e).le

theorem implicit_bit_append (m : BitVec 52) : (1#1 ++ m).toNat = 2 ^ 52 + m.toNat := by
  rw [BitVec.toNat_append, ← Nat.shiftLeft_add_eq_or_of_lt m.isLt]
  rfl

theorem ofNat_ne {w n : ℕ} {b : BitVec w} (hn : n < 2 ^ w) (h : n ≠ b.toNat) :
    BitVec.ofNat w n ≠ b := fun heq =>
  h (by rw [← heq, BitVec.toNat_ofNat, Nat.mod_eq_of_lt hn])

theorem unpack_normal (sign : Sign) {m field : ℕ} (hfield : field ≠ 0) (hfinite : field < 2047)
    (hlow : 2 ^ 52 ≤ m) (hhigh : m < 2 ^ 53) :
    UnpackedFloat.unpack Format.binary64
        (packComponents Format.binary64 sign (BitVec.ofNat 11 field) (BitVec.ofNat 52 m)) =
      .finite sign m (field - 1075) (by omega) := by
  have hbias : Format.binary64.exponentBias = 1023 := by decide
  have hexponent : (BitVec.ofNat 11 field).toNat = field := by
    rw [BitVec.toNat_ofNat, Nat.mod_eq_of_lt (by omega)]
  have hmantissa : (1#1 ++ BitVec.ofNat 52 m).toNat = m := by
    rw [implicit_bit_append, BitVec.toNat_ofNat]
    omega
  simp only [UnpackedFloat.unpack, unpackExponent_packComponents, unpackMantissa_packComponents,
    unpackSign_packComponents, Sign.ofBitVec_toBitVec, hbias]
  rw [if_neg (ofNat_ne (by omega) hfinite.ne), if_neg (ofNat_ne (by omega) hfield)]
  simp only [hmantissa, hexponent]
  rfl

theorem unpack_subnormal (sign : Sign) {m : ℕ} (hm : 0 < m) (hhigh : m < 2 ^ 52) :
    UnpackedFloat.unpack Format.binary64
        (packComponents Format.binary64 sign 0#11 (BitVec.ofNat 52 m)) =
      .finite sign m (-1074) hm := by
  have hbias : Format.binary64.exponentBias = 1023 := by decide
  have hmantissa : (BitVec.ofNat 52 m).toNat = m := by
    rw [BitVec.toNat_ofNat, Nat.mod_eq_of_lt hhigh]
  have hnonzero : BitVec.ofNat 52 m ≠ 0#52 := ofNat_ne hhigh hm.ne'
  simp only [UnpackedFloat.unpack, unpackExponent_packComponents, unpackMantissa_packComponents,
    unpackSign_packComponents, Sign.ofBitVec_toBitVec, hbias]
  rw [if_neg (by decide), if_pos trivial, dif_neg hnonzero]
  simp only [hmantissa]
  rfl

theorem unpack_pack {m : ℕ} {e : ℤ} (hm : 0 < m) (h : Canonical m e) (he : e < 972) :
    UnpackedFloat.unpack Format.binary64
        (UnpackedFloat.pack Format.binary64 (.finite .positive m e hm)) =
      .finite .positive m e hm := by
  have hleast := h.least
  have hbias : Format.binary64.exponentBias = 1023 := by decide
  have hbits : Format.binary64.mantissaBits = 53 := by decide
  obtain ⟨field, rfl⟩ : ∃ field : ℕ, e = field - 1075 := ⟨(e + 1075).toNat, by omega⟩
  have hfield : ((field : ℤ) - 1075 + (1023 : ℕ) + (52 : ℕ)).toNat = field := by omega
  simp only [UnpackedFloat.pack, hbias, hbits, hfield]
  rw [if_neg (by norm_num; omega)]
  split_ifs with hnormal
  · have hlog : m.log2 = 52 := by omega
    exact unpack_normal .positive (by omega) (by omega) (hlog ▸ Nat.log2_self_le hm.ne') h.short
  · have hhigh : m < 2 ^ 52 := by
      by_contra hge
      have := (Nat.le_log2 hm.ne').mpr (not_lt.mp hge)
      have := (Nat.log2_lt hm.ne').mpr h.short
      omega
    rw [h.full.resolve_left (by omega)]
    exact unpack_subnormal .positive hm hhigh

/-- A double from `2 ^ 1024` on is packed as infinity. -/
theorem unpack_pack_of_overflow {m : ℕ} {e : ℤ} (hm : 0 < m) (he : 972 ≤ e) :
    UnpackedFloat.unpack Format.binary64
        (UnpackedFloat.pack Format.binary64 (.finite .positive m e hm)) =
      .infinity .positive := by
  have hbias : Format.binary64.exponentBias = 1023 := by decide
  simp only [UnpackedFloat.pack, hbias]
  rw [if_pos (by norm_num; omega)]
  simp [UnpackedFloat.unpack, packedInfinity]

end IdentityLedger.Numeric
