import IdentityLedger.Event.Json
import IdentityLedger.Rehearsal.Recorder
import IdentityLedger.Report.Failures

/-!
# Projections as answers

What a runner achieved, what a registry signalled, and what it could not do.
-/
namespace IdentityLedger
open Json

def AppliedEvent.toJson (e : AppliedEvent) : Json :=
  .obj [("aggregate_id", e.aggregateId.toJson), ("sequence_number", nat e.sequenceNumber),
    ("event_type", .str e.eventType), ("handled", .bool e.handled)]

def StalledEnvelope.toJson (s : StalledEnvelope) : Json :=
  .obj [("aggregate_id", s.envelope.aggregateId.toJson),
    ("sequence_number", nat s.envelope.sequenceNumber),
    ("event_id", s.envelope.eventId.toJson), ("error", s.error.toJson)]

def Progress.toJson (p : Progress) : Json :=
  .obj [("applied", list AppliedEvent.toJson p.applied),
    ("stalled", list StalledEnvelope.toJson p.stalled)]

def ApplyOutcome.toJson : ApplyOutcome → Json
  | .applied progress => progress.toJson
  | .duplicate => .str "duplicate"
  | .parked => .str "parked"

def ProjectionUpdated.toJson (u : ProjectionUpdated) : Json :=
  .obj [("projection", .str u.projection), ("aggregate_id", u.aggregateId.toJson),
    ("sequence_number", nat u.sequenceNumber), ("event_type", .str u.eventType)]

namespace FailedUpdate

def toJson (f : FailedUpdate) : Json :=
  .obj [("projection", .str f.projection), ("aggregate_id", f.envelope.aggregateId.toJson),
    ("sequence_number", nat f.envelope.sequenceNumber), ("event_id", f.envelope.eventId.toJson),
    ("event_type", .str f.envelope.eventType), ("error", f.error.toJson),
    ("attempts", nat f.attempts)]

def brief (f : FailedUpdate) : Json :=
  .obj [("sequence_number", nat f.envelope.sequenceNumber), ("error", f.error.toJson),
    ("attempts", nat f.attempts)]

end FailedUpdate

def Rehearsal.Sighting.toJson (s : Sighting) : Json :=
  .arr [.str s.recorder, s.aggregateId.toJson, nat s.sequenceNumber, .str s.eventType]

end IdentityLedger
