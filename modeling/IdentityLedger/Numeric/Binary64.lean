/-!
# Doubles as exact numbers

A finite double is a sign, a whole mantissa and a power of two. Decisions that
must be exact (shortest decimals, rounding to nanoseconds) are taken on these
parts in whole numbers.
-/
namespace IdentityLedger.Numeric

/-- The magnitude `mantissa * 2 ^ exponent` of a finite double. -/
structure Magnitude where
  mantissa : Nat
  exponent : Int

def isNegative (x : Float) : Bool := x.toBits.toNat / Nat.pow 2 63 == 1

/-- None for infinities and for what is not a number. -/
def magnitude? (x : Float) : Option Magnitude :=
  let bits := x.toBits.toNat
  let field : Nat := bits / Nat.pow 2 52 % Nat.pow 2 11
  let fraction : Nat := bits % Nat.pow 2 52
  if field = 2047 then none
  else if field = 0 then some ⟨fraction, (-1074 : Int)⟩
  else some ⟨Nat.pow 2 52 + fraction, (field : Int) - 1075⟩

/-- Nearest whole number to a quotient, a tie going to the even neighbour. -/
def roundQuotient (num den : Nat) : Nat :=
  let q := num / den
  let r := num % den
  if 2 * r < den then q
  else if 2 * r > den then q + 1
  else if q % 2 = 0 then q
  else q + 1

namespace Magnitude

/-- The magnitude times `factor`, rounded to the nearest whole number, ties to even. -/
def roundTimes (m : Magnitude) (factor : Nat) : Nat :=
  if m.exponent ≥ 0 then m.mantissa * factor * Nat.pow 2 m.exponent.toNat
  else roundQuotient (m.mantissa * factor) (Nat.pow 2 (-m.exponent).toNat)

end Magnitude

/-- Repeated squaring; the exponent bounds the number of rounds. -/
def powerLoop : Nat → Float → Nat → Float → Float
  | 0, _, _, result => result
  | rounds + 1, base, exponent, result =>
    let result := if exponent % 2 = 1 then result * base else result
    if exponent / 2 = 0 then result else powerLoop rounds (base * base) (exponent / 2) result

def power (base : Float) (exponent : Nat) : Float := powerLoop 32 base exponent 1

/-- The smaller of two doubles; one that is not a number gives way to the other. -/
def smaller (x y : Float) : Float :=
  if x.isNaN then y else if y.isNaN then x else if y < x then y else x

end IdentityLedger.Numeric
