import IdentityLedger.Profile.Json

/-!
# Profile rows

The read model holds one row per profile that is created and not retired.
-/
namespace IdentityLedger
open Json

structure ProfileRow where
  profileId : AggregateId
  userId : UserId
  createdAt : Timestamp
  mintedAt : Option Timestamp
  idvLevel : Option IdvLevel
  active : Bool
  activatedAt : Option Timestamp
  verifiedAt : Option Timestamp
  deactivationReason : Option DeactivationReason
  holds : Holds
  deriving DecidableEq

namespace ProfileRow

def facialMatch (row : ProfileRow) : Bool := (row.idvLevel.map IdvLevel.facialMatch).getD false

def pendingReasons (row : ProfileRow) : List PendingReason := row.holds.reasons

def created (profileId : AggregateId) (userId : UserId) (createdAt : Timestamp) : ProfileRow where
  profileId
  userId
  createdAt
  mintedAt := none
  idvLevel := none
  active := false
  activatedAt := none
  verifiedAt := none
  deactivationReason := none
  holds := .none

def toJson (row : ProfileRow) : Json :=
  let time := Json.option Timestamp.toJson
  .obj [("profile_id", row.profileId.toJson), ("user_id", row.userId.toJson),
    ("created_at", row.createdAt.toJson), ("minted_at", time row.mintedAt),
    ("idv_level", Json.option IdvLevel.toJson row.idvLevel), ("active", .bool row.active),
    ("activated_at", time row.activatedAt), ("verified_at", time row.verifiedAt),
    ("deactivation_reason", Json.option DeactivationReason.toJson row.deactivationReason),
    ("gpo_verification_pending_at", time row.holds.gpo),
    ("fraud_review_pending_at", time row.holds.fraudReview),
    ("fraud_rejection_at", time row.holds.fraudRejection),
    ("in_person_verification_pending_at", time row.holds.inPerson)]

def ofJson? (json : Json) : Option ProfileRow := do
  let r ← Record.ofJson? 13 json
  let profileId ← r.required? 0 "profile_id" AggregateId.ofJson?
  let userId ← r.required? 1 "user_id" UserId.ofJson?
  let createdAt ← r.required? 2 "created_at" Timestamp.ofJson?
  let mintedAt ← r.optional? 3 "minted_at" Timestamp.ofJson?
  let idvLevel ← r.optional? 4 "idv_level" IdvLevel.ofJson?
  let active ← r.required? 5 "active" bool?
  let activatedAt ← r.optional? 6 "activated_at" Timestamp.ofJson?
  let verifiedAt ← r.optional? 7 "verified_at" Timestamp.ofJson?
  let deactivationReason ← r.optional? 8 "deactivation_reason" DeactivationReason.ofJson?
  let gpo ← r.optional? 9 "gpo_verification_pending_at" Timestamp.ofJson?
  let fraudReview ← r.optional? 10 "fraud_review_pending_at" Timestamp.ofJson?
  let fraudRejection ← r.optional? 11 "fraud_rejection_at" Timestamp.ofJson?
  let inPerson ← r.optional? 12 "in_person_verification_pending_at" Timestamp.ofJson?
  pure { profileId, userId, createdAt, mintedAt, idvLevel, active, activatedAt, verifiedAt,
         deactivationReason, holds := { gpo, fraudReview, fraudRejection, inPerson } }

end ProfileRow

end IdentityLedger
