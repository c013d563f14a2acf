import IdentityLedger.Identifier
import IdentityLedger.Profile.Vocabulary

/-!
# Profile commands

A command either adds a profile or asks an existing profile to act. It is never
stored: an accepted command turns into events, a rejected one leaves no trace.
-/
namespace IdentityLedger

inductive CommandTarget where
  /-- A new stream; without an id, the handler allocates one. -/
  | create (id : Option AggregateId)
  | existing (id : AggregateId)
  deriving DecidableEq

namespace CommandTarget

def aggregateId : CommandTarget → Option AggregateId
  | create id => id
  | existing id => some id

def isCreation : CommandTarget → Bool
  | create _ => true
  | existing _ => false

end CommandTarget

/-- What an existing profile can be asked to do. -/
inductive ProfileAction where
  | mint (level : IdvLevel)
  | activate
  | deactivate (reason : DeactivationReason)
  | retire
  | holdForGpo
  | releaseGpoHold
  | holdForFraudReview
  | rejectForFraud
  | holdForInPerson
  | activateAfterReview
  | activateAfterInPerson
  | supersede (supersededBy : AggregateId)
  deriving DecidableEq

inductive ProfileCommand where
  | add (profileId : Option AggregateId) (userId : UserId) (time : Timestamp)
  | act (profileId : AggregateId) (action : ProfileAction) (time : Timestamp)
  deriving DecidableEq

def ProfileCommand.target : ProfileCommand → CommandTarget
  | add profileId _ _ => .create profileId
  | act profileId _ _ => .existing profileId

end IdentityLedger
