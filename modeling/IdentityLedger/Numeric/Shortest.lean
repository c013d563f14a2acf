import IdentityLedger.Numeric.Binary64
import IdentityLedger.Text.Digits

/-!
# Shortest decimals

The decimal of a double is the one with fewest digits that rounds back to it,
and of those the nearest. Two layouts are used: plain positional digits, and
digits with an exponent for very large and very small numbers.
-/
namespace IdentityLedger.Numeric
open Text

/-- A decimal `digits * 10 ^ power`. -/
structure Decimal where
  digits : Nat
  power : Int

namespace Decimal

def trimZeros : Nat → Decimal → Decimal
  | 0, d => d
  | rounds + 1, d =>
    if d.digits ≠ 0 ∧ d.digits % 10 = 0 then trimZeros rounds ⟨d.digits / 10, d.power + 1⟩ else d

end Decimal

/-- A positive rational. -/
structure Ratio where
  num : Nat
  den : Nat

namespace Ratio

def le (a b : Ratio) : Bool := a.num * b.den ≤ b.num * a.den

def lt (a b : Ratio) : Bool := a.num * b.den < b.num * a.den

def decimal (n : Nat) (power : Int) : Ratio :=
  if power ≥ 0 then ⟨n * Nat.pow 10 power.toNat, 1⟩ else ⟨n, Nat.pow 10 (-power).toNat⟩

def binary (n : Nat) (power : Int) : Ratio :=
  if power ≥ 0 then ⟨n * Nat.pow 2 power.toNat, 1⟩ else ⟨n, Nat.pow 2 (-power).toNat⟩

def floorOver (a : Ratio) (power : Int) : Nat :=
  if power ≥ 0 then a.num / (a.den * Nat.pow 10 power.toNat)
  else a.num * Nat.pow 10 (-power).toNat / a.den

def distance (a b : Ratio) : Ratio :=
  let x := a.num * b.den
  let y := b.num * a.den
  ⟨if x ≤ y then y - x else x - y, a.den * b.den⟩

end Ratio

/-- The reals that round to a double: the ends belong to it iff its mantissa is even. -/
structure Interval where
  low : Ratio
  high : Ratio
  closed : Bool

namespace Interval

def ofMagnitude (m : Magnitude) : Interval :=
  let below := if m.mantissa = Nat.pow 2 52 ∧ m.exponent ≠ -1074 then 1 else 2
  ⟨Ratio.binary (4 * m.mantissa - below) (m.exponent - 2),
    Ratio.binary (4 * m.mantissa + 2) (m.exponent - 2), m.mantissa % 2 = 0⟩

def contains (i : Interval) (a : Ratio) : Bool :=
  if i.closed then i.low.le a && a.le i.high else i.low.lt a && a.lt i.high

end Interval

/-- How many decimal digits stand before the point; not positive for numbers below a tenth. -/
def leadingPower (a : Ratio) : Int :=
  let guess : Int := (digitCount a.num : Int) - digitCount a.den
  if Ratio.le (Ratio.decimal 1 guess) a then guess + 1 else guess

inductive Tie where
  | upper
  | even

def Tie.choose (t : Tie) (lower : Nat) : Nat :=
  match t with
  | upper => lower + 1
  | even => if lower % 2 = 0 then lower else lower + 1

/-- The nearer of the two neighbours on the grid of multiples of `10 ^ power` that
lie in the interval. -/
def nearestOn (tie : Tie) (i : Interval) (value : Ratio) (power : Int) : Option Decimal :=
  let lower := value.floorOver power
  let upper := lower + 1
  let low := Ratio.decimal lower power
  let high := Ratio.decimal upper power
  match lower ≠ 0 && i.contains low, i.contains high with
  | true, true =>
    if (value.distance low).lt (value.distance high) then some ⟨lower, power⟩
    else if (value.distance high).lt (value.distance low) then some ⟨upper, power⟩
    else some ⟨tie.choose lower, power⟩
  | true, false => some ⟨lower, power⟩
  | false, true => some ⟨upper, power⟩
  | false, false => none

/-- Tries grids of 1, 2, …, 17 digits; seventeen always suffice for a double. -/
def shortest (tie : Tie) (m : Magnitude) : Decimal :=
  if m.mantissa = 0 then ⟨0, 0⟩
  else
    let value := Ratio.binary m.mantissa m.exponent
    let interval := Interval.ofMagnitude m
    let lead := leadingPower value
    let grids := (List.range 17).map fun (n : Nat) => lead - (n + 1 : Nat)
    match grids.findSome? (nearestOn tie interval value) with
    | some d => d.trimZeros 400
    | none => ⟨m.mantissa, m.exponent⟩

/-- How doubles are written so that they show to be doubles. -/
structure FloatStyle where
  tie : Tie
  /-- Numbers with fewer digits before the point are written with an exponent. -/
  least : Int
  /-- Whether a positive exponent has a sign. -/
  plus : Bool

namespace Decimal

/-- Digits in positional layout, never with an exponent. -/
def positional (d : Decimal) : List Char :=
  let digits := Text.decimal d.digits
  if d.power ≥ 0 then
    if d.digits = 0 then ['0'] else digits ++ List.replicate d.power.toNat '0'
  else
    let places := (-d.power).toNat
    let padded := List.replicate (places + 1 - digits.length) '0' ++ digits
    padded.take (padded.length - places) ++ '.' :: padded.drop (padded.length - places)

/-- One digit, then the others behind a point, then the exponent. -/
def scientific (d : Decimal) (plus : Bool) : List Char :=
  let digits := Text.decimal d.digits
  let exponent : Int := d.power + (digits.length : Int) - 1
  let tail := digits.drop 1
  digits.take 1 ++ (if tail = [] then [] else '.' :: tail) ++
    'e' :: (if plus && exponent > 0 then ['+'] else []) ++ (toString exponent).toList

def lead (d : Decimal) : Int := d.power + digitCount d.digits

/-- Positional layout in which whole numbers keep `.0`, but for numbers of at least
`10 ^ 16` and very small ones, which are written with an exponent. -/
def styled (style : FloatStyle) (d : Decimal) : List Char :=
  if d.digits ≠ 0 ∧ (d.lead > 16 ∨ d.lead < style.least) then d.scientific style.plus
  else d.positional ++ if d.power ≥ 0 then ['.', '0'] else []

end Decimal

def signed (x : Float) (digits : List Char) : List Char :=
  if isNegative x then '-' :: digits else digits

def special (x : Float) : List Char :=
  if x.isNaN then "NaN".toList else signed x "inf".toList

/-- Plain text of a double: shortest digits, no exponent, no point for whole numbers. -/
def plainText (x : Float) : String :=
  String.ofList <| match magnitude? x with
    | none => special x
    | some m => signed x (shortest .upper m).positional

def styledText (style : FloatStyle) (x : Float) : String :=
  String.ofList <| match magnitude? x with
    | none => special x
    | some m => signed x ((shortest style.tie m).styled style)

/-- Shown to a person, numbers below `10 ^ -4` have an exponent, and an upper neighbour is
taken for a tie. -/
def shownStyle : FloatStyle := ⟨.upper, -3, false⟩

end IdentityLedger.Numeric
