import IdentityLedger.Json.Decoding
import IdentityLedger.Profile.Command
import IdentityLedger.Profile.Event
import IdentityLedger.Calendar.TimestampText
import IdentityLedger.Uuid.Fault

/-!
# JSON form of profile events and commands

Events are persisted and commands are received as variants: an object whose one
member is named for the variant and holds a record. Decoding accepts every record
that encoding writes, and records given by position.
-/
namespace IdentityLedger
open Json

def Uuid.toJson (id : Uuid) : Json := .str id.text

def Uuid.decode : Decoder Uuid :=
  decodeText "a formatted UUID string" fun text =>
    match Uuid.ofText? text with
    | some id => .ok id
    | none => .error ("UUID parsing failed: " ++ (Uuid.fault text.toList).message)

def Uuid.ofJson? (json : Json) : Option Uuid := (Uuid.decode json).toOption

def AggregateId.toJson (id : AggregateId) : Json := .str id.text

def AggregateId.decode : Decoder AggregateId := fun json => (Uuid.decode json).map AggregateId.mk

def AggregateId.ofJson? (json : Json) : Option AggregateId := (AggregateId.decode json).toOption

def UserId.toJson (id : UserId) : Json := .str id.text

def UserId.decode : Decoder UserId := fun json => (Uuid.decode json).map UserId.mk

def UserId.ofJson? (json : Json) : Option UserId := (UserId.decode json).toOption

def Timestamp.toJson (time : Timestamp) : Json := .str time.text

def Timestamp.decode : Decoder Timestamp :=
  decodeText "an RFC 3339 formatted date and time string" fun text =>
    (Timestamp.read text.toList).mapError Timestamp.Fault.message

def Timestamp.ofJson? (json : Json) : Option Timestamp := (Timestamp.decode json).toOption

def IdvLevel.toJson (level : IdvLevel) : Json := .str level.name

def IdvLevel.decode : Decoder IdvLevel :=
  decodeKeyword (IdvLevel.all.map IdvLevel.name) IdvLevel.ofName?

def IdvLevel.ofJson? (json : Json) : Option IdvLevel := (IdvLevel.decode json).toOption

def DeactivationReason.toJson (reason : DeactivationReason) : Json := .str reason.name

def DeactivationReason.decode : Decoder DeactivationReason :=
  decodeKeyword (DeactivationReason.all.map DeactivationReason.name) DeactivationReason.ofName?

def DeactivationReason.ofJson? (json : Json) : Option DeactivationReason :=
  (DeactivationReason.decode json).toOption

namespace ProfileEvent

def variantName : ProfileChange → String
  | .created _ => "ProfileCreated"
  | .minted _ => "ProfileMinted"
  | .activated _ => "ProfileActivated"
  | .deactivated _ => "ProfileDeactivated"
  | .retired => "ProfileRetired"
  | .gpoVerificationPending => "ProfileGpoVerificationPending"
  | .gpoVerificationCleared => "ProfileGpoVerificationCleared"
  | .fraudReviewPending => "ProfileFraudReviewPending"
  | .fraudReviewPassed => "ProfileFraudReviewPassed"
  | .fraudRejected => "ProfileFraudRejected"
  | .inPersonVerificationPending => "ProfileInPersonVerificationPending"
  | .inPersonVerificationPassed => "ProfileInPersonVerificationPassed"
  | .superseded _ => "ProfileSuperseded"

/-- The fields of an event apart from the profile's id. -/
def fields (event : ProfileEvent) : List (String × Json) :=
  let time := event.occurredAt.toJson
  match event.change with
  | .created userId => [("user_id", userId.toJson), ("occurred_at", time)]
  | .minted level => [("minted_at", time), ("idv_level", level.toJson)]
  | .activated verifiedAt =>
    [("activated_at", time), ("verified_at", Json.option Timestamp.toJson verifiedAt)]
  | .deactivated reason => [("reason", reason.toJson), ("occurred_at", time)]
  | .superseded supersededBy => [("superseded_by", supersededBy.toJson), ("occurred_at", time)]
  | _ => [("occurred_at", time)]

def toJson (event : ProfileEvent) : Json :=
  variant (variantName event.change)
    (.obj (("profile_id", event.profileId.toJson) :: event.fields))

/-- A variant whose record has `size` fields: the profile's id first, the time at `index`. -/
def variantOf (name : String) (size index : Nat) (timeName : String)
    (change : Fields → Except Fault ProfileChange) : String × Decoder ProfileEvent :=
  (name, decodeRecord name size fun fields => do
    let profileId := fields.required 0 "profile_id" AggregateId.decode
    let time := fields.required index timeName Timestamp.decode
    let ((profileId, time), change) ← Fields.both (Fields.both profileId time) (change fields)
    .ok ⟨profileId, time, change⟩)

def plain (name : String) (change : ProfileChange) : String × Decoder ProfileEvent :=
  variantOf name 2 1 "occurred_at" fun _ => .ok change

def variants : List (String × Decoder ProfileEvent) := [
  variantOf "ProfileCreated" 3 2 "occurred_at" fun fields =>
    (fields.required 1 "user_id" UserId.decode).map .created,
  variantOf "ProfileMinted" 3 1 "minted_at" fun fields =>
    (fields.required 2 "idv_level" IdvLevel.decode).map .minted,
  variantOf "ProfileActivated" 3 1 "activated_at" fun fields =>
    (fields.optional 2 "verified_at" Timestamp.decode).map .activated,
  variantOf "ProfileDeactivated" 3 2 "occurred_at" fun fields =>
    (fields.required 1 "reason" DeactivationReason.decode).map .deactivated,
  plain "ProfileRetired" .retired,
  plain "ProfileGpoVerificationPending" .gpoVerificationPending,
  plain "ProfileGpoVerificationCleared" .gpoVerificationCleared,
  plain "ProfileFraudReviewPending" .fraudReviewPending,
  plain "ProfileFraudReviewPassed" .fraudReviewPassed,
  plain "ProfileFraudRejected" .fraudRejected,
  plain "ProfileInPersonVerificationPending" .inPersonVerificationPending,
  plain "ProfileInPersonVerificationPassed" .inPersonVerificationPassed,
  variantOf "ProfileSuperseded" 3 2 "occurred_at" fun fields =>
    (fields.required 1 "superseded_by" AggregateId.decode).map .superseded]

def decode : Decoder ProfileEvent := decodeVariant variants

def ofJson? (json : Json) : Option ProfileEvent := (decode json).toOption

end ProfileEvent

namespace ProfileCommand

def variantName : ProfileAction → String
  | .mint _ => "MintProfile"
  | .activate => "ActivateProfile"
  | .deactivate _ => "DeactivateProfile"
  | .retire => "RetireProfile"
  | .holdForGpo => "DeactivateForGpoVerification"
  | .releaseGpoHold => "RemoveGpoVerificationHold"
  | .holdForFraudReview => "DeactivateForFraudReview"
  | .rejectForFraud => "RejectForFraud"
  | .holdForInPerson => "DeactivateForInPersonVerification"
  | .activateAfterReview => "ActivateAfterPassingReview"
  | .activateAfterInPerson => "ActivateAfterPassingInPerson"
  | .supersede _ => "SupersedeProfile"

def fields (action : ProfileAction) (time : Json) : List (String × Json) :=
  match action with
  | .mint level => [("minted_at", time), ("idv_level", level.toJson)]
  | .activate | .activateAfterReview | .activateAfterInPerson => [("activated_at", time)]
  | .deactivate reason => [("reason", reason.toJson), ("occurred_at", time)]
  | .supersede supersededBy => [("superseded_by", supersededBy.toJson), ("occurred_at", time)]
  | _ => [("occurred_at", time)]

def toJson : ProfileCommand → Json
  | .add profileId userId time =>
    variant "AddProfile" (.obj [("profile_id", Json.option AggregateId.toJson profileId),
      ("user_id", userId.toJson), ("occurred_at", time.toJson)])
  | .act profileId action time =>
    variant (variantName action)
      (.obj (("profile_id", profileId.toJson) :: fields action time.toJson))

def record? (content : Json) (size index : Nat) (timeName : String)
    (action : Record → Option ProfileAction) : Option ProfileCommand := do
  let r ← Record.ofJson? size content
  let profileId ← r.required? 0 "profile_id" AggregateId.ofJson?
  let time ← r.required? index timeName Timestamp.ofJson?
  let action ← action r
  pure (.act profileId action time)

def hold? (content : Json) (action : ProfileAction) : Option ProfileCommand :=
  record? content 2 1 "occurred_at" fun _ => some action

def activation? (content : Json) (action : ProfileAction) : Option ProfileCommand :=
  record? content 2 1 "activated_at" fun _ => some action

def add? (content : Json) : Option ProfileCommand := do
  let r ← Record.ofJson? 3 content
  let profileId ← r.optional? 0 "profile_id" AggregateId.ofJson?
  let userId ← r.required? 1 "user_id" UserId.ofJson?
  let time ← r.required? 2 "occurred_at" Timestamp.ofJson?
  pure (.add profileId userId time)

def ofJson? (json : Json) : Option ProfileCommand := do
  let (name, content) ← json.variant?
  match name with
  | "AddProfile" => add? content
  | "MintProfile" =>
    record? content 3 1 "minted_at" fun r =>
      (r.required? 2 "idv_level" IdvLevel.ofJson?).map .mint
  | "ActivateProfile" => activation? content .activate
  | "DeactivateProfile" =>
    record? content 3 2 "occurred_at" fun r =>
      (r.required? 1 "reason" DeactivationReason.ofJson?).map .deactivate
  | "RetireProfile" => hold? content .retire
  | "DeactivateForGpoVerification" => hold? content .holdForGpo
  | "RemoveGpoVerificationHold" => hold? content .releaseGpoHold
  | "DeactivateForFraudReview" => hold? content .holdForFraudReview
  | "RejectForFraud" => hold? content .rejectForFraud
  | "DeactivateForInPersonVerification" => hold? content .holdForInPerson
  | "ActivateAfterPassingReview" => activation? content .activateAfterReview
  | "ActivateAfterPassingInPerson" => activation? content .activateAfterInPerson
  | "SupersedeProfile" =>
    record? content 3 2 "occurred_at" fun r =>
      (r.required? 1 "superseded_by" AggregateId.ofJson?).map .supersede
  | _ => none

end ProfileCommand

end IdentityLedger
