import IdentityLedger.Json.DecodeError
import IdentityLedger.Json.Record

/-!
# Decoding with reasons

Decoders that say why a value is refused. Where several fields of a record are at
fault, the one that is met first is named: the members of an object are met in
ascending order of their names and missing ones after all others, the items of an
array in the order of the fields.
-/
namespace IdentityLedger.Json

abbrev Decoder (α : Type) := Json → Except DecodeError α

def decodeText {α : Type} (expected : String) (read : String → Except String α) : Decoder α
  | .str text => (read text).mapError .malformed
  | other => .error (.refusal other expected)

/-- Decodes one of some keywords. -/
def decodeKeyword {α : Type} (keywords : List String) (ofName? : String → Option α) : Decoder α
  | .str name => keyword name
  | .obj [(name, content)] => do
    let value ← keyword name
    match content with
    | .null => .ok value
    | other => .error (.refusal other "unit")
  | .obj _ => .error .notSingleMember
  | other => .error (.refusal other "string or map")
where
  keyword (name : String) : Except DecodeError α :=
    match ofName? name with
    | some value => .ok value
    | none => .error (.unknownVariant name keywords)

/-- Decodes one of some variants, each with a decoder of its content. -/
def decodeVariant {α : Type} (variants : List (String × Decoder α)) : Decoder α
  | .str name => do
    let _ ← content name
    .error .contentMissing
  | .obj [(name, value)] => do (← content name) value
  | .obj _ => .error .notSingleMember
  | other => .error (.refusal other "string or map")
where
  content (name : String) : Except DecodeError (Decoder α) :=
    match variants.lookup name with
    | some decoder => .ok decoder
    | none => .error (.unknownVariant name (variants.map Prod.fst))

inductive Fault where
  /-- A member that does not decode. -/
  | member (name : String) (error : DecodeError)
  /-- A missing field, or an item that does not decode. -/
  | position (index : Nat) (error : DecodeError)

namespace Fault

def error : Fault → DecodeError
  | member _ error | position _ error => error

/-- The one of two faults that is met first. -/
def first : Fault → Fault → Fault
  | member name error, member other error' =>
    if name ≤ other then member name error else member other error'
  | member name error, position _ _ => member name error
  | position _ _, member name error => member name error
  | position index error, position other error' =>
    if index ≤ other then position index error else position other error'

end Fault

/-- A record of a named type with `size` fields, before its fields are decoded. -/
structure Fields where
  typeName : String
  size : Nat
  record : Record

namespace Fields

def missing (fields : Fields) (index : Nat) (name : String) : Fault :=
  match fields.record with
  | .named _ => .position index (.missingField name)
  | .positional _ =>
    .position index (.wrongLength index
      ("struct " ++ fields.typeName ++ " with " ++ toString fields.size ++ " elements"))

def fault (fields : Fields) (index : Nat) (name : String) : DecodeError → Fault :=
  match fields.record with
  | .named _ => .member name
  | .positional _ => .position index

def required {α : Type} (fields : Fields) (index : Nat) (name : String) (decode : Decoder α) :
    Except Fault α :=
  match fields.record.slot? index name with
  | some value => (decode value).mapError (fields.fault index name)
  | none => .error (fields.missing index name)

def optional {α : Type} (fields : Fields) (index : Nat) (name : String) (decode : Decoder α) :
    Except Fault (Option α) :=
  match fields.record.slot? index name, fields.record with
  | some .null, _ | none, .named _ => .ok none
  | some value, _ => ((decode value).map some).mapError (fields.fault index name)
  | none, .positional _ => .error (fields.missing index name)

/-- Two fields, of whose faults the first one counts. -/
def both {α β : Type} : Except Fault α → Except Fault β → Except Fault (α × β)
  | .ok a, .ok b => .ok (a, b)
  | .error fault, .ok _ => .error fault
  | .ok _, .error fault => .error fault
  | .error fault, .error other => .error (fault.first other)

end Fields

/-- Decodes a record from an object, or from an array with no more items than fields. -/
def decodeRecord {α : Type} (typeName : String) (size : Nat) (read : Fields → Except Fault α) :
    Decoder α
  | .obj members => (read ⟨typeName, size, .named members⟩).mapError Fault.error
  | .arr items => do
    let value ← (read ⟨typeName, size, .positional items⟩).mapError Fault.error
    if items.length ≤ size then .ok value
    else .error (.wrongLength items.length "fewer elements in array")
  | other => .error (.refusal other ("struct " ++ typeName))

end IdentityLedger.Json
