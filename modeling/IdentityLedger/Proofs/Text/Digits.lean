import IdentityLedger.Text.Digits
import Mathlib.Algebra.Group.Nat.Defs
import Mathlib.Data.List.TakeDrop

/-!
# Numerals read back

A decimal numeral of a fixed width stands for its number modulo the power of ten,
and a reader that meets it at the front of a text takes exactly its digits. The
same holds of hexadecimal numerals.
-/
namespace IdentityLedger.Text

theorem digitChar_spec {d : Nat} (hd : d < 10) :
    isDigit (digitChar d) = true ∧ digitValue (digitChar d) = d ∧ isBlank (digitChar d) = false := by
  have h : ∀ d : Fin 10, isDigit (digitChar d) = true ∧ digitValue (digitChar d) = d ∧
      isBlank (digitChar d) = false := by decide
  exact h ⟨d, hd⟩

theorem ofDigits_concat (digits : List Char) (c : Char) :
    ofDigits (digits ++ [c]) = 10 * ofDigits digits + digitValue c := by
  simp [ofDigits]

theorem ofDigits_fixedDigits (width n : Nat) : ofDigits (fixedDigits width n) = n % 10 ^ width := by
  induction width generalizing n with
  | zero => simp [fixedDigits, ofDigits, Nat.mod_one]
  | succ width ih =>
    have hlast := (digitChar_spec (Nat.mod_lt n (by decide : 0 < 10))).2.1
    rw [fixedDigits, ofDigits_concat, ih, hlast, Nat.pow_succ, Nat.mul_comm (10 ^ width),
      Nat.mod_mul]
    omega

theorem ofDigits_fixedDigits_of_lt {width n : Nat} (h : n < 10 ^ width) :
    ofDigits (fixedDigits width n) = n := by
  rw [ofDigits_fixedDigits, Nat.mod_eq_of_lt h]

theorem isDigit_of_mem_fixedDigits {width n : Nat} {c : Char} (hc : c ∈ fixedDigits width n) :
    isDigit c = true := by
  induction width generalizing n with
  | zero => simp [fixedDigits] at hc
  | succ width ih =>
    rw [fixedDigits, List.mem_append, List.mem_singleton] at hc
    rcases hc with hc | rfl
    · exact ih hc
    · exact (digitChar_spec (Nat.mod_lt n (by decide))).1

theorem fixedDigits_ne_nil {width : Nat} (h : width ≠ 0) (n : Nat) : fixedDigits width n ≠ [] := by
  intro hnil
  have hlength := length_fixedDigits width n
  rw [hnil] at hlength
  exact h hlength.symm

theorem isBlank_of_isDigit {c : Char} (h : isDigit c = true) : isBlank c = false := by
  simp only [isDigit, Bool.and_eq_true, decide_eq_true_eq, Char.le_def, UInt32.le_iff_toNat_le] at h
  have hc : 48 ≤ c.toNat ∧ c.toNat ≤ 57 := h
  simp only [isBlank]
  grind

theorem skipBlanks_fixedDigits_append {width : Nat} (h : width ≠ 0) (n : Nat) (rest : List Char) :
    skipBlanks (fixedDigits width n ++ rest) = fixedDigits width n ++ rest := by
  obtain ⟨c, digits, hdigits⟩ := List.exists_cons_of_ne_nil (fixedDigits_ne_nil h n)
  have hc : isDigit c = true := isDigit_of_mem_fixedDigits (by rw [hdigits]; exact List.mem_cons_self)
  rw [hdigits, List.cons_append, skipBlanks, List.dropWhile_cons, isBlank_of_isDigit hc]
  simp

/-- A run of digits no longer than the limit is split off whole, before what is no digit. -/
theorem splitDigits_append {limit : Nat} {digits rest : List Char}
    (hdigits : ∀ c ∈ digits, isDigit c = true) (hlimit : digits.length ≤ limit)
    (hrest : ∀ c ∈ rest.head?, isDigit c = false) :
    splitDigits limit (digits ++ rest) = (digits, rest) := by
  induction digits generalizing limit with
  | nil =>
    cases limit with
    | zero => simp [splitDigits]
    | succ limit =>
      cases rest with
      | nil => simp [splitDigits]
      | cons c rest => simp [splitDigits, hrest c rfl]
  | cons c digits ih =>
    cases limit with
    | zero => simp at hlimit
    | succ limit =>
      have htail := ih (fun d hd => hdigits d (List.mem_cons_of_mem _ hd))
        (by simpa using hlimit)
      simp [splitDigits, hdigits c List.mem_cons_self, htail]

theorem span_isDigit_append {digits rest : List Char}
    (hdigits : ∀ c ∈ digits, isDigit c = true) (hrest : ∀ c ∈ rest.head?, isDigit c = false) :
    (digits ++ rest).span isDigit = (digits, rest) := by
  rw [List.span_eq_takeWhile_dropWhile, List.takeWhile_append_of_pos hdigits,
    List.dropWhile_append_of_pos hdigits]
  cases rest with
  | nil => simp
  | cons c rest => simp [hrest c rfl]

theorem lt_pow_digitCount (n : Nat) : n < 10 ^ digitCount n := by
  fun_induction digitCount n with
  | case1 n h => simpa using h
  | case2 n h ih =>
    rw [Nat.pow_succ]
    omega

theorem hexValue?_hexChar {d : Nat} (hd : d < 16) : hexValue? (hexChar d) = some d := by
  have h : ∀ d : Fin 16, hexValue? (hexChar d) = some d.val := by decide
  exact h ⟨d, hd⟩

theorem ofHex?_hexDigits (width n : Nat) : ofHex? (hexDigits width n) = some (n % 16 ^ width) := by
  induction width generalizing n with
  | zero => simp [hexDigits, ofHex?, Nat.mod_one]
  | succ width ih =>
    have hfront := ih (n / 16)
    rw [ofHex?] at hfront ⊢
    rw [hexDigits, List.foldlM_append, hfront, Nat.pow_succ, Nat.mul_comm (16 ^ width), Nat.mod_mul]
    simp [hexValue?_hexChar (Nat.mod_lt n (by decide : 0 < 16))]
    omega

end IdentityLedger.Text
