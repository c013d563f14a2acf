import IdentityLedger.Json.Basic

/-!
# Records, variants and keywords in JSON

A record is read from an object by name, where unknown members are ignored, or
from an array by position. A variant is an object with one member, named for the
variant. A keyword is a string, or an object whose one member is null.
-/
namespace IdentityLedger.Json

/-- A record that is being read. -/
inductive Record where
  | named (members : List (String × Json))
  | positional (items : List Json)

namespace Record

/-- A record of `size` fields: an array must have one item for each. -/
def ofJson? (size : Nat) : Json → Option Record
  | .obj members => some (.named members)
  | .arr items => if items.length = size then some (.positional items) else none
  | _ => none

/-- A record of `size` fields that all have defaults: an array may stop early. -/
def ofJsonPartial? (size : Nat) : Json → Option Record
  | .obj members => some (.named members)
  | .arr items => if items.length ≤ size then some (.positional items) else none
  | _ => none

def slot? (r : Record) (index : Nat) (name : String) : Option Json :=
  match r with
  | .named members => members.lookup name
  | .positional items => items[index]?

/-- A field that must be there. -/
def required? {α : Type} (r : Record) (index : Nat) (name : String) (decode : Json → Option α) :
    Option α :=
  (r.slot? index name).bind decode

/-- A field that is none when it is null or missing. -/
def optional? {α : Type} (r : Record) (index : Nat) (name : String) (decode : Json → Option α) :
    Option (Option α) :=
  match r.slot? index name with
  | none => some none
  | some value => value.option? decode

/-- A field that takes a default when it is missing; null is not missing. -/
def defaulted? {α : Type} (r : Record) (index : Nat) (name : String) (decode : Json → Option α)
    (default : α) : Option α :=
  match r.slot? index name with
  | none => some default
  | some value => decode value

end Record

def variant? : Json → Option (String × Json)
  | .obj [(name, content)] => some (name, content)
  | _ => none

def variant (name : String) (content : Json) : Json := .obj [(name, content)]

def keyword? : Json → Option String
  | .str name => some name
  | .obj [(name, .null)] => some name
  | _ => none

end IdentityLedger.Json
