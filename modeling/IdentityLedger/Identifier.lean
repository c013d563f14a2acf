import IdentityLedger.Uuid

/-!
# Identifiers of users and aggregates

Both are identifiers of their own kind, so that a user is never taken for a
profile.
-/
namespace IdentityLedger

/-- An aggregate: one id, one event stream. -/
structure AggregateId where
  uuid : Uuid
  deriving DecidableEq

structure UserId where
  uuid : Uuid
  deriving DecidableEq

namespace AggregateId

instance : LT AggregateId := ⟨fun a b => a.uuid < b.uuid⟩

instance (a b : AggregateId) : Decidable (a < b) := inferInstanceAs (Decidable (a.uuid < b.uuid))

def text (id : AggregateId) : String := id.uuid.text

def ofText? (text : String) : Option AggregateId := (Uuid.ofText? text).map AggregateId.mk

end AggregateId

namespace UserId

def text (id : UserId) : String := id.uuid.text

def ofText? (text : String) : Option UserId := (Uuid.ofText? text).map UserId.mk

end UserId

end IdentityLedger
