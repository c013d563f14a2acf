import IdentityLedger.Json.Basic

/-!
# The texts in a JSON value

Every string in a value, together with the name of the member that it is the value
of. Strings in lists and a value that is itself a string stand under no name.
-/
namespace IdentityLedger.Json

mutual

def texts (name : String) : Json → List (String × String)
  | .str value => [(name, value)]
  | .arr items => itemTexts items
  | .obj members => memberTexts members
  | _ => []

def itemTexts : List Json → List (String × String)
  | [] => []
  | item :: items => item.texts "" ++ itemTexts items

def memberTexts : List (String × Json) → List (String × String)
  | [] => []
  | (name, value) :: members => value.texts name ++ memberTexts members

end

mutual

/-- Replaces strings, each by its name and text. -/
def mapTexts (f : String → String → String) (name : String) : Json → Json
  | .str value => .str (f name value)
  | .arr items => .arr (mapItems f items)
  | .obj members => .obj (mapMembers f members)
  | other => other

def mapItems (f : String → String → String) : List Json → List Json
  | [] => []
  | item :: items => item.mapTexts f "" :: mapItems f items

def mapMembers (f : String → String → String) : List (String × Json) → List (String × Json)
  | [] => []
  | (name, value) :: members => (name, value.mapTexts f name) :: mapMembers f members

end

mutual

/-- The same value with the members of all objects in ascending order of their names. -/
def sorted : Json → Json
  | .arr items => .arr (sortedItems items)
  | .obj members => .obj ((sortedMembers members).mergeSort fun a b => a.1 ≤ b.1)
  | other => other

def sortedItems : List Json → List Json
  | [] => []
  | item :: items => item.sorted :: sortedItems items

def sortedMembers : List (String × Json) → List (String × Json)
  | [] => []
  | (name, value) :: members => (name, value.sorted) :: sortedMembers members

end

end IdentityLedger.Json
