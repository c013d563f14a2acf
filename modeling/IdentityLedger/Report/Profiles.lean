import IdentityLedger.CommandHandler
import IdentityLedger.Event.Json
import IdentityLedger.ReadModel.Row

/-!
# Profiles and commands as answers

A profile and a row are answered with their fields and with what follows from them.
-/
namespace IdentityLedger
open Json

def Report.pendingNames (reasons : List PendingReason) : Json := list (fun r => .str r.name) reasons

namespace Profile

def toJson (p : Profile) : Json :=
  let time := option Timestamp.toJson
  .obj [("id", p.id.toJson), ("user_id", option UserId.toJson p.userId),
    ("created", .bool p.isCreated), ("created_at", time p.createdAt),
    ("minted", .bool p.isMinted), ("minted_at", time p.mintedAt),
    ("idv_level", option IdvLevel.toJson p.idvLevel),
    ("facial_match", option (fun level => .bool (IdvLevel.facialMatch level)) p.idvLevel),
    ("active", .bool p.active), ("activated_at", time p.activatedAt),
    ("verified_at", time p.verifiedAt),
    ("deactivation_reason", option DeactivationReason.toJson p.deactivationReason),
    ("gpo_verification_pending_at", time p.holds.gpo),
    ("fraud_review_pending_at", time p.holds.fraudReview),
    ("fraud_rejection_at", time p.holds.fraudRejection),
    ("in_person_verification_pending_at", time p.holds.inPerson),
    ("pending", Report.pendingNames p.pendingReasons), ("retired", .bool p.retired),
    ("version", nat p.version), ("committed_version", nat p.committedVersion),
    ("uncommitted", list (fun event => .str (ProfileEvent.eventType event)) p.uncommitted.events)]

end Profile

def ProfileRow.summary (row : ProfileRow) : Json :=
  match row.toJson with
  | .obj members =>
    .obj (members ++
      [("facial_match", .bool row.facialMatch), ("pending", Report.pendingNames row.pendingReasons)])
  | other => other

def CommandTarget.toJson : CommandTarget → Json
  | .create id => .obj [("target", .str "create"), ("aggregate_id", option AggregateId.toJson id)]
  | .existing id => .obj [("target", .str "existing"), ("aggregate_id", id.toJson)]

def CommandOutcome.toJson (o : CommandOutcome) : Json :=
  .obj [("aggregate_id", o.aggregateId.toJson), ("version", nat o.version),
    ("attempts", nat o.attempts), ("committed", list StoredEvent.toJson o.committed)]

end IdentityLedger
