import IdentityLedger.Json.Printer
import IdentityLedger.Text.Quoted

/-!
# Why a JSON value does not decode

An error names what was found and what is needed in its place, or the variant, length
or field that is at fault.
-/
namespace IdentityLedger.Json

/-- A scalar is described by its value, a list or an object only by its kind. -/
def describe : Json → String
  | .null => "null"
  | .bool value => "boolean `" ++ (if value then "true" else "false") ++ "`"
  | .int value => "integer `" ++ toString value ++ "`"
  | .float value => "floating point `" ++ floatText value ++ "`"
  | .str value => "string " ++ Text.quoted value
  | .arr _ => "sequence"
  | .obj _ => "map"

inductive DecodeError where
  | wrongType (found expected : String)
  | wrongLength (length : Nat) (expected : String)
  /-- An object for a variant that has no member, or more than one. -/
  | notSingleMember
  /-- A variant that is given by its name alone. -/
  | contentMissing
  | unknownVariant (name : String) (known : List String)
  | missingField (name : String)
  | malformed (reason : String)
  deriving DecidableEq

namespace DecodeError

def message : DecodeError → String
  | wrongType found expected => "invalid type: " ++ found ++ ", expected " ++ expected
  | wrongLength length expected =>
    "invalid length " ++ toString length ++ ", expected " ++ expected
  | notSingleMember => "invalid value: map, expected map with a single key"
  | contentMissing => "invalid type: unit variant, expected newtype variant"
  | unknownVariant name known =>
    "unknown variant `" ++ name ++ "`, expected one of " ++
      ", ".intercalate (known.map fun other => "`" ++ other ++ "`")
  | missingField name => "missing field `" ++ name ++ "`"
  | malformed reason => reason

def refusal (found : Json) (expected : String) : DecodeError := wrongType found.describe expected

end DecodeError

end IdentityLedger.Json
