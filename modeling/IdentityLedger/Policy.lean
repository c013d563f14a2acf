import IdentityLedger.Event.Stored
import IdentityLedger.Profile.Command
import IdentityLedger.ReadModel.Row

/-!
# One active profile per user

When a profile is activated, the other active profiles of its user step down. The
policy only decides: it finds activations among committed events, and the commands
that they call for among the rows.
-/
namespace IdentityLedger

structure Activation where
  profileId : AggregateId
  activatedAt : Timestamp
  deriving DecidableEq

namespace SingleActiveProfile

def activation? (event : StoredEvent) : Option Activation :=
  if event.eventType = ProfileEvent.activatedType then
    match event.profileEvent? with
    | some ⟨profileId, time, .activated _⟩ => some ⟨profileId, time⟩
    | _ => none
  else none

/-- The activations among committed events; what does not decode is passed over. -/
def activations (committed : List StoredEvent) : List Activation := committed.filterMap activation?

def isSibling (activation : Activation) (userId : UserId) (row : ProfileRow) : Bool :=
  row.userId = userId ∧ row.active ∧ row.profileId ≠ activation.profileId

/-- Commands by which every other active profile of the user steps down. -/
def react (activation : Activation) (userId : UserId) (rows : List ProfileRow) :
    List ProfileCommand :=
  (rows.filter (isSibling activation userId)).map fun row =>
    .act row.profileId (.supersede activation.profileId) activation.activatedAt

end SingleActiveProfile

end IdentityLedger
