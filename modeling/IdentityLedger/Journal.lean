/-!
# The journal

What the parts of an engine report while they work. A record has a level, maybe a
message, and named fields. Any state that has room for a journal can be reported to.
-/
namespace IdentityLedger

inductive Level where
  | debug
  | info
  | warn
  | error
  deriving DecidableEq

def Level.name : Level → String
  | debug => "DEBUG"
  | info => "INFO"
  | warn => "WARN"
  | error => "ERROR"

inductive FieldValue where
  | text (value : String)
  | number (value : Nat)
  deriving DecidableEq

structure JournalRecord where
  level : Level
  message : Option String
  fields : List (String × FieldValue)
  deriving DecidableEq

class Journal (ω : Type) where
  note : JournalRecord → ω → ω

namespace Journal
variable {ω : Type} [Journal ω]

def report (level : Level) (message : String) (fields : List (String × FieldValue)) : StateM ω Unit :=
  modify (note ⟨level, some message, fields⟩)

def reportFailure (error : String) : StateM ω Unit :=
  modify (note ⟨.error, none, [("error", .text error)]⟩)

end Journal

end IdentityLedger
