import IdentityLedger.Profile.Event
import IdentityLedger.Uncommitted

/-!
# Profiles

A profile is a user's verified identity record. Its state changes only by applying
events, each of which raises the version by one; the state is therefore a fold of
the profile's history.
-/
namespace IdentityLedger

structure Profile where
  id : AggregateId
  userId : Option UserId
  createdAt : Option Timestamp
  mintedAt : Option Timestamp
  idvLevel : Option IdvLevel
  active : Bool
  activatedAt : Option Timestamp
  verifiedAt : Option Timestamp
  deactivationReason : Option DeactivationReason
  holds : Holds
  retired : Bool
  version : Nat
  uncommitted : Uncommitted ProfileEvent
  deriving DecidableEq

namespace Profile

def aggregateType : String := "profiles.profile"

/-- A profile of which nothing has happened. -/
def blank (id : AggregateId) : Profile where
  id
  userId := none
  createdAt := none
  mintedAt := none
  idvLevel := none
  active := false
  activatedAt := none
  verifiedAt := none
  deactivationReason := none
  holds := .none
  retired := false
  version := 0
  uncommitted := .empty

def isCreated (p : Profile) : Bool := p.createdAt.isSome

def isMinted (p : Profile) : Bool := p.mintedAt.isSome

def pendingReasons (p : Profile) : List PendingReason := p.holds.reasons

/-- What an event changes, the version apart. -/
def change (p : Profile) (event : ProfileEvent) : Profile :=
  let time := event.occurredAt
  match event.change with
  | .created userId => { p with id := event.profileId, userId := some userId, createdAt := some time }
  | .minted level => { p with mintedAt := some time, idvLevel := some level }
  | .activated verifiedAt =>
    { p with
      active := true
      activatedAt := some time
      deactivationReason := none
      verifiedAt := if verifiedAt.isSome then verifiedAt else p.verifiedAt }
  | .deactivated reason => { p with active := false, deactivationReason := some reason }
  | .retired => { p with active := false, retired := true }
  | .gpoVerificationPending => { p with active := false, holds.gpo := some time }
  | .gpoVerificationCleared => { p with holds.gpo := none }
  | .fraudReviewPending =>
    { p with
      active := false
      holds.fraudReview := some time
      holds.fraudRejection := none
      holds.inPerson := none }
  | .fraudReviewPassed => { p with holds.fraudReview := none, holds.fraudRejection := none }
  | .fraudRejected =>
    { p with
      active := false
      holds.fraudReview := none
      holds.fraudRejection := some time
      holds.inPerson := none }
  | .inPersonVerificationPending => { p with active := false, holds.inPerson := some time }
  | .inPersonVerificationPassed => { p with holds.inPerson := none }
  | .superseded _ => { p with active := false }

def apply (p : Profile) (event : ProfileEvent) : Profile :=
  { p.change event with version := p.version + 1 }

/-- Evolves a profile by a run of events, oldest first. -/
def replay (p : Profile) (events : List ProfileEvent) : Profile := events.foldl apply p

/-- The profile with a given history. -/
def load (id : AggregateId) (history : List ProfileEvent) : Profile := (blank id).replay history

/-- Applies a freshly decided event and keeps it for commit. -/
def record (p : Profile) (event : ProfileEvent) : Profile :=
  { p.apply event with uncommitted := p.uncommitted.push event }

/-- The number of the last stored event the profile has seen. -/
def committedVersion (p : Profile) : Nat := p.version - p.uncommitted.size

def markCommitted (p : Profile) : Profile := { p with uncommitted := .empty }

theorem replay_append (p : Profile) (first rest : List ProfileEvent) :
    p.replay (first ++ rest) = (p.replay first).replay rest := List.foldl_append

@[simp] theorem version_apply (p : Profile) (event : ProfileEvent) :
    (p.apply event).version = p.version + 1 := rfl

end Profile

end IdentityLedger
