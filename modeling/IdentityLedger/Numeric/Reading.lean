import IdentityLedger.Text.Digits

/-!
# Reading numbers from settings

Numbers in settings are plain decimal texts. Each way to be malformed is a cause
of its own; a double may also be written with an exponent or by name.
-/
namespace IdentityLedger.Numeric
open Text

inductive NumberError where
  | emptyInteger
  | invalidDigit
  | tooLarge
  | emptyFloat
  | invalidFloat
  deriving DecidableEq

def NumberError.message : NumberError → String
  | .emptyInteger => "cannot parse integer from empty string"
  | .invalidDigit => "invalid digit found in string"
  | .tooLarge => "number too large to fit in target type"
  | .emptyFloat => "cannot parse float from empty string"
  | .invalidFloat => "invalid float literal"

/-- Reads digits from the left; the first fault met is the one reported. -/
def accumulate {bound : Nat} : Fin bound → List Char → Except NumberError (Fin bound)
  | n, [] => .ok n
  | n, c :: rest =>
    if isDigit c then
      if h : 10 * n.val + digitValue c < bound then accumulate ⟨10 * n.val + digitValue c, h⟩ rest
      else .error .tooLarge
    else .error .invalidDigit

/-- An unsigned number below a bound, with an optional plus sign. -/
def readNat (bound : Nat) (text : List Char) : Except NumberError (Fin bound) :=
  if h : 0 < bound then
    match text with
    | [] => .error .emptyInteger
    | ['+'] => .error .invalidDigit
    | '+' :: rest => accumulate ⟨0, h⟩ rest
    | text => accumulate ⟨0, h⟩ text
  else .error .tooLarge

/-- The double nearest to `digits * 10 ^ power`. Far outside the range of doubles the
answer is known without computing the power. -/
def ofDecimal (digits : Nat) (power : Int) : Float :=
  let lead := power + digitCount digits
  if digits = 0 ∨ lead < -400 then 0
  else if lead > 400 then Float.ofBits 0x7FF0000000000000
  else Float.ofScientific digits (power < 0) power.natAbs

def readExponent (text : List Char) : Option Int :=
  let (sign, digits) : Int × List Char := match text with
    | '-' :: rest => (-1, rest)
    | '+' :: rest => (1, rest)
    | rest => (1, rest)
  if digits ≠ [] ∧ digits.all isDigit then some (sign * (ofDigits digits : Int)) else none

def readDecimal (text : List Char) : Option Float :=
  let (whole, text) := text.span isDigit
  let (fraction, text) := match text with
    | '.' :: rest => rest.span isDigit
    | text => ([], text)
  if whole = [] ∧ fraction = [] then none
  else
    let value (exponent : Int) : Float :=
      ofDecimal (ofDigits (whole ++ fraction)) (exponent - fraction.length)
    match text with
    | [] => some (value 0)
    | c :: rest => if c = 'e' ∨ c = 'E' then (readExponent rest).map value else none

def readNamed (text : List Char) : Option Float :=
  let name := String.ofList (text.map Char.toLower)
  if name = "inf" ∨ name = "infinity" then some (Float.ofBits 0x7FF0000000000000)
  else if name = "nan" then some (Float.ofBits 0x7FF8000000000000)
  else none

def readFloat (text : List Char) : Except NumberError Float :=
  if text = [] then .error .emptyFloat
  else
    let (negative, text) := match text with
      | '-' :: rest => (true, rest)
      | '+' :: rest => (false, rest)
      | text => (false, text)
    match (readDecimal text).orElse fun _ => readNamed text with
    | some value => .ok (if negative then -value else value)
    | none => .error .invalidFloat

end IdentityLedger.Numeric
