import IdentityLedger.Numeric.Reading
import IdentityLedger.Text.Digits

/-!
# Settings

A setting is a text under a key. A text that does not fit its key is reported with
the key, the text as it was given, and the reason.
-/
namespace IdentityLedger

structure ConfigError where
  key : String
  value : String
  reason : String
  deriving DecidableEq

def ConfigError.message (e : ConfigError) : String :=
  "invalid value '" ++ e.value ++ "' for " ++ e.key ++ ": " ++ e.reason

namespace Setting
open Numeric

def parse {α : Type} (read : List Char → Except NumberError α) (key value : String) :
    Except ConfigError α :=
  match read (Text.trim value.toList) with
  | .ok result => .ok result
  | .error error => .error ⟨key, value, error.message⟩

end Setting

end IdentityLedger
