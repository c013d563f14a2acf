import IdentityLedger.Json.Basic
import IdentityLedger.Text.Digits

/-!
# JSON numerals

A numeral without fraction and exponent that fits 64 bits is an integer. Every
other numeral, and minus zero, is a floating-point number: its leading digits,
as many as fit 64 bits, scaled by one power of ten.
-/
namespace IdentityLedger.Json
open Text

/-- A numeral split into its parts; the exponent is none where no mark was written. -/
structure Numeral where
  negative : Bool
  whole : List Char
  fraction : Option (List Char)
  exponent : Option Int

namespace Numeral

def maxSignificand : Nat := UInt64.size - 1

/-- Digits taken into a significand, with the power of ten they stand at. -/
structure Scaled where
  significand : Nat
  power : Int
  full : Bool

namespace Scaled

/-- A digit before the point: once one does not fit, it and all later ones only count. -/
def pushWhole (s : Scaled) (c : Char) : Scaled :=
  let next := 10 * s.significand + digitValue c
  if s.full || next > maxSignificand then { s with power := s.power + 1, full := true }
  else { s with significand := next }

/-- A digit after the point: once one does not fit, it and all later ones are dropped. -/
def pushFraction (s : Scaled) (c : Char) : Scaled :=
  let next := 10 * s.significand + digitValue c
  if s.full || next > maxSignificand then { s with full := true }
  else { s with significand := next, power := s.power - 1 }

end Scaled

def powerOfTen (n : Nat) : Float := Float.ofScientific 1 false n

/-- Scales by a power of ten; a result too large is refused, one too small is zero. -/
def scale? (significand : Nat) (power : Int) : Option Float :=
  let f := (UInt64.ofNat significand).toFloat
  if significand = 0 then some 0
  else if power > 308 then none
  else if power ≥ 0 then
    let value := f * powerOfTen power.toNat
    if value.isInf then none else some value
  else if power ≥ -308 then some (f / powerOfTen (-power).toNat)
  else if power ≥ -616 then some (f / powerOfTen 308 / powerOfTen (-power - 308).toNat)
  else some 0

def scaled (n : Numeral) : Scaled :=
  let whole := n.whole.foldl Scaled.pushWhole ⟨0, 0, false⟩
  ((n.fraction.getD []).foldl Scaled.pushFraction { whole with full := false })

def toFloat? (n : Numeral) : Option Float :=
  let s := n.scaled
  (scale? s.significand (s.power + n.exponent.getD 0)).map fun f => if n.negative then -f else f

/-- An integer keeps its value unless it is minus zero or does not fit 64 bits. -/
def value? (n : Numeral) : Option Json :=
  let whole := ofDigits n.whole
  if n.fraction.isNone ∧ n.exponent.isNone ∧
      (if n.negative then 0 < whole ∧ whole ≤ 9223372036854775808 else whole ≤ maxSignificand) then
    some (.int (if n.negative then -(whole : Int) else whole))
  else n.toFloat?.map .float

def readSign : List Char → Bool × List Char
  | '-' :: rest => (true, rest)
  | text => (false, text)

/-- A point must be followed by a digit. -/
def readFraction? : List Char → Option (Option (List Char) × List Char)
  | '.' :: rest =>
    let (digits, rest) := rest.span isDigit
    if digits = [] then none else some (some digits, rest)
  | text => some (none, text)

def readExponent? : List Char → Option (Option Int × List Char)
  | c :: rest =>
    if c = 'e' ∨ c = 'E' then
      let (sign, rest) : Int × List Char := match rest with
        | '-' :: rest => (-1, rest)
        | '+' :: rest => (1, rest)
        | rest => (1, rest)
      let (digits, rest) := rest.span isDigit
      if digits = [] then none else some (some (sign * (ofDigits digits : Int)), rest)
    else some (none, c :: rest)
  | [] => some (none, [])

/-- Splits a numeral off the front of a text. -/
def read? (text : List Char) : Option (Numeral × List Char) := do
  let (negative, text) := readSign text
  let (whole, text) := text.span isDigit
  if whole = [] ∨ (whole.head? = some '0' ∧ whole.length ≠ 1) then none
  else
    let (fraction, text) ← readFraction? text
    let (exponent, text) ← readExponent? text
    pure (⟨negative, whole, fraction, exponent⟩, text)

end Numeral

end IdentityLedger.Json
