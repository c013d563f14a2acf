import IdentityLedger.Profile.Command
import IdentityLedger.Profile.Rejection
import IdentityLedger.Profile.State

/-!
# Deciding commands

A command is decided on the state of its profile: it is rejected for one cause, or
it yields the events that carry it out. Passing a check and activating yields two
events or none.
-/
namespace IdentityLedger.Profile

def event (p : Profile) (time : Timestamp) (change : ProfileChange) : ProfileEvent :=
  ⟨p.id, time, change⟩

/-- Activation verifies a profile once, and never when it comes back from a password reset. -/
def verificationTime (p : Profile) (time : Timestamp) : Option Timestamp :=
  if p.deactivationReason = some .passwordReset ∨ p.verifiedAt.isSome then none else some time

/-- The objection to activating a profile that is deactivated for a reason other than a reset. -/
def barredBy (p : Profile) : Option DeactivationReason :=
  match p.deactivationReason with
  | some .passwordReset | none => none
  | some reason => some reason

def activation (p : Profile) (time : Timestamp) : Except Rejection (List ProfileEvent) :=
  if !p.isMinted then .error .notMinted
  else if p.active then .error .alreadyActive
  else if p.pendingReasons ≠ [] then .error (.pending p.pendingReasons)
  else match p.barredBy with
    | some reason => .error (.barred reason)
    | none => .ok [p.event time (.activated (p.verificationTime time))]

def activationAfter (p : Profile) (time : Timestamp) (passed : ProfileChange) :
    Except Rejection (List ProfileEvent) :=
  let first := p.event time passed
  (activation (p.apply first) time).map (first :: ·)

/-- What a live profile does when asked to act. -/
def action (p : Profile) (time : Timestamp) : ProfileAction → Except Rejection (List ProfileEvent)
  | .mint level =>
    if p.isMinted then .error .alreadyMinted else .ok [p.event time (.minted level)]
  | .activate => p.activation time
  | .deactivate reason =>
    if !p.active && p.deactivationReason == some reason then .error (.alreadyDeactivated reason)
    else .ok [p.event time (.deactivated reason)]
  | .retire => if p.active then .error .stillActive else .ok [p.event time .retired]
  | .holdForGpo =>
    if p.holds.gpo.isSome then .error .alreadyPendingGpo
    else .ok [p.event time .gpoVerificationPending]
  | .releaseGpoHold =>
    if p.holds.gpo.isNone then .error .notPendingGpo
    else .ok [p.event time .gpoVerificationCleared]
  | .holdForFraudReview =>
    if p.holds.fraudReview.isSome then .error .alreadyPendingReview
    else .ok [p.event time .fraudReviewPending]
  | .rejectForFraud =>
    if p.holds.fraudRejection.isSome then .error .alreadyRejected
    else .ok [p.event time .fraudRejected]
  | .holdForInPerson =>
    if p.holds.inPerson.isSome then .error .alreadyPendingInPerson
    else .ok [p.event time .inPersonVerificationPending]
  | .activateAfterReview =>
    if p.holds.fraudReview.isNone && p.holds.fraudRejection.isNone then .error .notUnderReview
    else p.activationAfter time .fraudReviewPassed
  | .activateAfterInPerson =>
    if p.holds.inPerson.isNone then .error .notPendingInPerson
    else p.activationAfter time .inPersonVerificationPassed
  | .supersede supersededBy =>
    if !p.active then .error .notActive
    else if supersededBy = p.id then .error .supersedesItself
    else .ok [p.event time (.superseded supersededBy)]

def creation (p : Profile) (profileId : Option AggregateId) (userId : UserId) (time : Timestamp) :
    Except Rejection (List ProfileEvent) :=
  if profileId.isSome && profileId != some p.id then .error .otherProfile
  else if p.isCreated then .error .alreadyExists
  else .ok [p.event time (.created userId)]

/-- The decision on a command: only a profile that exists and is not retired can act. -/
def decide (p : Profile) : ProfileCommand → Except Rejection (List ProfileEvent)
  | .add profileId userId time => p.creation profileId userId time
  | .act profileId action time =>
    if p.id ≠ profileId then .error .otherProfile
    else if !p.isCreated then .error .unknownProfile
    else if p.retired then .error .retiredProfile
    else p.action time action

/-- Carries out a command: its events are recorded, or it is rejected and nothing changes. -/
def handle (p : Profile) (command : ProfileCommand) : Except DomainError Unit × Profile :=
  match p.decide command with
  | .ok events => (.ok (), events.foldl record p)
  | .error rejection => (.error rejection.error, p)

/-- Carries out a command and returns the events that this call recorded. -/
def execute (p : Profile) (command : ProfileCommand) :
    Except DomainError (List ProfileEvent) × Profile :=
  let (result, after) := p.handle command
  (result.map fun _ => after.uncommitted.events.drop p.uncommitted.size, after)

end IdentityLedger.Profile
