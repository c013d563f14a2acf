import IdentityLedger.Identifier
import IdentityLedger.Profile.Vocabulary

/-!
# Profile events

A profile event is a change of one profile at one time. Every kind of change has a
stable type name, under which it is stored.
-/
namespace IdentityLedger

inductive ProfileChange where
  | created (userId : UserId)
  | minted (level : IdvLevel)
  /-- The time of verification is given only by the activation that first verifies. -/
  | activated (verifiedAt : Option Timestamp)
  | deactivated (reason : DeactivationReason)
  | retired
  | gpoVerificationPending
  | gpoVerificationCleared
  | fraudReviewPending
  | fraudReviewPassed
  | fraudRejected
  | inPersonVerificationPending
  | inPersonVerificationPassed
  | superseded (supersededBy : AggregateId)
  deriving DecidableEq

def ProfileChange.eventType : ProfileChange → String
  | created _ => "profiles.profile.created"
  | minted _ => "profiles.profile.minted"
  | activated _ => "profiles.profile.activated"
  | deactivated _ => "profiles.profile.deactivated"
  | retired => "profiles.profile.retired"
  | gpoVerificationPending => "profiles.profile.gpo_verification_pending"
  | gpoVerificationCleared => "profiles.profile.gpo_verification_cleared"
  | fraudReviewPending => "profiles.profile.fraud_review_pending"
  | fraudReviewPassed => "profiles.profile.fraud_review_passed"
  | fraudRejected => "profiles.profile.fraud_rejected"
  | inPersonVerificationPending => "profiles.profile.in_person_verification_pending"
  | inPersonVerificationPassed => "profiles.profile.in_person_verification_passed"
  | superseded _ => "profiles.profile.superseded"

structure ProfileEvent where
  profileId : AggregateId
  occurredAt : Timestamp
  change : ProfileChange
  deriving DecidableEq

namespace ProfileEvent

def eventType (event : ProfileEvent) : String := event.change.eventType

/-- The schema version; no kind of event has been revised. -/
def schemaVersion (_ : ProfileEvent) : Nat := 1

def activatedType : String := "profiles.profile.activated"

def eventTypes : List String :=
  ["profiles.profile.created", "profiles.profile.minted", "profiles.profile.activated",
    "profiles.profile.deactivated", "profiles.profile.retired",
    "profiles.profile.gpo_verification_pending", "profiles.profile.gpo_verification_cleared",
    "profiles.profile.fraud_review_pending", "profiles.profile.fraud_review_passed",
    "profiles.profile.fraud_rejected", "profiles.profile.in_person_verification_pending",
    "profiles.profile.in_person_verification_passed", "profiles.profile.superseded"]

theorem eventType_mem (event : ProfileEvent) : event.eventType ∈ eventTypes := by
  obtain ⟨_, _, change⟩ := event
  cases change <;> simp [eventType, ProfileChange.eventType, eventTypes]

end ProfileEvent

end IdentityLedger
