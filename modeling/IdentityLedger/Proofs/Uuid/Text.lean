import IdentityLedger.Proofs.Text.Digits
import IdentityLedger.Uuid
import Mathlib.Algebra.GroupWithZero.Nat

/-!
# Written identifiers read back

An identifier is written in groups, and joining the groups gives back its digits.
-/
namespace IdentityLedger.Uuid
open Text

/-- Cutting a text into groups that take it up whole is undone by joining them. -/
theorem joinGroups_hyphenate {sizes : List Nat} (hsizes : sizes ≠ []) {text : List Char}
    (htext : text.length = sizes.sum) : joinGroups sizes (hyphenate sizes text) = some text := by
  induction sizes generalizing text with
  | nil => exact absurd rfl hsizes
  | cons size sizes ih =>
    cases sizes with
    | nil =>
      have hwhole : text.length = size := by simpa using htext
      simp [hyphenate, joinGroups, hwhole]
    | cons next sizes =>
      rw [List.sum_cons] at htext
      have hsize : (text.take size).length = size := by
        rw [List.length_take]
        omega
      have hrest : joinGroups (next :: sizes) (hyphenate (next :: sizes) (text.drop size)) =
          some (text.drop size) := by
        apply ih (by simp)
        rw [List.length_drop]
        omega
      have hdrop (rest : List Char) : (text.take size ++ rest).drop size = rest := by
        rw [List.drop_append_of_le_length (by omega), List.drop_of_length_le (by omega),
          List.nil_append]
      have htake (rest : List Char) : (text.take size ++ rest).take size = text.take size := by
        rw [List.take_append_of_le_length (by omega), List.take_of_length_le (by omega)]
      simp only [hyphenate, joinGroups, hdrop, htake, hrest, Option.map_some, List.take_append_drop]

theorem length_hyphenate {sizes : List Nat} (hsizes : sizes ≠ []) {text : List Char}
    (htext : text.length = sizes.sum) :
    (hyphenate sizes text).length = text.length + (sizes.length - 1) := by
  induction sizes generalizing text with
  | nil => exact absurd rfl hsizes
  | cons size sizes ih =>
    cases sizes with
    | nil => simp [hyphenate]
    | cons next sizes =>
      rw [List.sum_cons] at htext
      have hrest : (hyphenate (next :: sizes) (text.drop size)).length =
          (text.drop size).length + ((next :: sizes).length - 1) := by
        apply ih (by simp)
        rw [List.length_drop]
        omega
      simp only [hyphenate, List.length_append, List.length_cons, List.length_take, hrest,
        List.length_drop]
      omega

theorem ofChars?_chars (id : Uuid) : ofChars? id.chars = some id := by
  have hlength : (hexDigits 32 id.bits.toNat).length = groups.sum := length_hexDigits 32 _
  have hchars : id.chars.length = 36 := by
    rw [chars, length_hyphenate (by decide) hlength, length_hexDigits]
    rfl
  have hbits : id.bits.toNat < 16 ^ 32 := id.bits.isLt
  have hvalue : ofHex? (hexDigits 32 id.bits.toNat) = some id.bits.toNat := by
    rw [ofHex?_hexDigits, Nat.mod_eq_of_lt hbits]
  have hjoin : joinGroups groups id.chars = some (hexDigits 32 id.bits.toNat) :=
    joinGroups_hyphenate (by decide) hlength
  simp [ofChars?, digits?, hchars, hjoin, hvalue]

theorem ofText?_text (id : Uuid) : ofText? id.text = some id := by
  rw [ofText?, text, String.toList_ofList, ofChars?_chars]

end IdentityLedger.Uuid
