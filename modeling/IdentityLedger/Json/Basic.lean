/-!
# JSON values

Integers and floating-point numbers are kept apart: an integer is one that fits
64 bits, signed or unsigned, and was written without fraction or exponent.
-/
namespace IdentityLedger

inductive Json where
  | null
  | bool (value : Bool)
  | int (value : Int)
  | float (value : Float)
  | str (value : String)
  | arr (items : List Json)
  | obj (members : List (String × Json))
  deriving Inhabited

namespace Json

/-- Adds a member; a member of the same name is replaced where it stands. -/
def setMember (name : String) (value : Json) : List (String × Json) → List (String × Json)
  | [] => [(name, value)]
  | (other, old) :: members =>
    if other = name then (name, value) :: members
    else (other, old) :: setMember name value members

def member? (name : String) : Json → Option Json
  | .obj members => members.lookup name
  | _ => none

def nat (n : Nat) : Json := .int n

def option {α : Type} (encode : α → Json) : Option α → Json
  | none => .null
  | some value => encode value

def list {α : Type} (encode : α → Json) (values : List α) : Json := .arr (values.map encode)

def string? : Json → Option String
  | .str value => some value
  | _ => none

def bool? : Json → Option Bool
  | .bool value => some value
  | _ => none

def natBelow? (bound : Nat) : Json → Option Nat
  | .int value => if 0 ≤ value ∧ value < bound then some value.toNat else none
  | _ => none

def count64? : Json → Option Nat := natBelow? UInt64.size

def count32? : Json → Option Nat := natBelow? UInt32.size

/-- Any number, rounded to a double. -/
def float? : Json → Option Float
  | .float value => some value
  | .int value => some (if value < 0 then -(UInt64.ofNat value.natAbs).toFloat else (UInt64.ofNat value.toNat).toFloat)
  | _ => none

def list? {α : Type} (decode : Json → Option α) : Json → Option (List α)
  | .arr items => items.mapM decode
  | _ => none

def option? {α : Type} (decode : Json → Option α) : Json → Option (Option α)
  | .null => some none
  | value => (decode value).map some

end Json

end IdentityLedger
