import IdentityLedger.ReadModel.RowStore

/-!
# The profile projection

Creation inserts a row, later events update only the columns they own, and
retirement removes the row.
-/
namespace IdentityLedger

namespace ProfileRow

/-- What an event other than creation and retirement does to the row of its profile. -/
def change (row : ProfileRow) (event : ProfileEvent) : ProfileRow :=
  let time := event.occurredAt
  match event.change with
  | .created _ | .retired => row
  | .minted level => { row with mintedAt := some time, idvLevel := some level }
  | .activated verifiedAt =>
    { row with
      active := true
      activatedAt := some time
      deactivationReason := none
      verifiedAt := if verifiedAt.isSome then verifiedAt else row.verifiedAt }
  | .deactivated reason => { row with active := false, deactivationReason := some reason }
  | .gpoVerificationPending => { row with active := false, holds.gpo := some time }
  | .gpoVerificationCleared => { row with holds.gpo := none }
  | .fraudReviewPending =>
    { row with
      active := false
      holds.fraudReview := some time
      holds.fraudRejection := none
      holds.inPerson := none }
  | .fraudReviewPassed => { row with holds.fraudReview := none, holds.fraudRejection := none }
  | .fraudRejected =>
    { row with
      active := false
      holds.fraudReview := none
      holds.fraudRejection := some time
      holds.inPerson := none }
  | .inPersonVerificationPending => { row with active := false, holds.inPerson := some time }
  | .inPersonVerificationPassed => { row with holds.inPerson := none }
  | .superseded _ => { row with active := false }

end ProfileRow

namespace RowStore
variable {ω : Type}

/-- Reads the row of a profile, changes it and writes it back. -/
def change (rows : RowStore ω) (id : AggregateId) (f : ProfileRow → ProfileRow) :
    StateM ω (Except ProjectionError Unit) := do
  match ← rows.get id with
  | .error error => pure (.error error)
  | .ok none => pure (.error (.missingRecord id))
  | .ok (some row) => rows.upsert id (f row)

def project (rows : RowStore ω) (event : ProfileEvent) : StateM ω (Except ProjectionError Unit) :=
  match event.change with
  | .created userId =>
    rows.upsert event.profileId (.created event.profileId userId event.occurredAt)
  | .retired => do
    match ← rows.remove event.profileId with
    | .error error => pure (.error error)
    | .ok _ => pure (.ok ())
  | _ => rows.change event.profileId fun row => row.change event

end RowStore

def profileProjectionName : String := "profiles.profile_projection"

def profileProjection {ω : Type} (rows : RowStore ω) : Projection ω where
  name := profileProjectionName
  handles eventType := ProfileEvent.eventTypes.contains eventType
  receive := Projection.decoded ProfileEvent.decode fun envelope => rows.project envelope.payload
  reset := rows.clear

end IdentityLedger
