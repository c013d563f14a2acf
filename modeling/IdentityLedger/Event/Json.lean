import IdentityLedger.Event.Stored

/-!
# JSON form of stored events

New events, stored events and envelopes are records. A payload may be any value,
null included, but it must be there.
-/
namespace IdentityLedger
open Json

namespace Envelope

def toJson {α : Type} (payload : α → Json) (e : Envelope α) : Json :=
  .obj [("event_id", e.eventId.toJson), ("aggregate_id", e.aggregateId.toJson),
    ("aggregate_type", .str e.aggregateType), ("sequence_number", .nat e.sequenceNumber),
    ("event_type", .str e.eventType), ("occurred_at", e.occurredAt.toJson),
    ("payload", payload e.payload)]

def ofJson? (json : Json) : Option (Envelope Json) := do
  let r ← Record.ofJson? 7 json
  let eventId ← r.required? 0 "event_id" Uuid.ofJson?
  let aggregateId ← r.required? 1 "aggregate_id" AggregateId.ofJson?
  let aggregateType ← r.required? 2 "aggregate_type" string?
  let sequenceNumber ← r.required? 3 "sequence_number" count64?
  let eventType ← r.required? 4 "event_type" string?
  let occurredAt ← r.required? 5 "occurred_at" Timestamp.ofJson?
  let payload ← r.required? 6 "payload" some
  pure { eventId, aggregateId, aggregateType, sequenceNumber, eventType, occurredAt, payload }

end Envelope

namespace NewEvent

def toJson (e : NewEvent) : Json :=
  .obj [("event_id", e.eventId.toJson), ("aggregate_id", e.aggregateId.toJson),
    ("aggregate_type", .str e.aggregateType), ("event_type", .str e.eventType),
    ("event_version", .nat e.eventVersion), ("occurred_at", e.occurredAt.toJson),
    ("payload", e.payload)]

def ofJson? (json : Json) : Option NewEvent := do
  let r ← Record.ofJson? 7 json
  let eventId ← r.required? 0 "event_id" Uuid.ofJson?
  let aggregateId ← r.required? 1 "aggregate_id" AggregateId.ofJson?
  let aggregateType ← r.required? 2 "aggregate_type" string?
  let eventType ← r.required? 3 "event_type" string?
  let eventVersion ← r.required? 4 "event_version" count32?
  let occurredAt ← r.required? 5 "occurred_at" Timestamp.ofJson?
  let payload ← r.required? 6 "payload" some
  pure { eventId, aggregateId, aggregateType, eventType, eventVersion, occurredAt, payload }

end NewEvent

namespace StoredEvent

def toJson (e : StoredEvent) : Json :=
  .obj [("event_id", e.eventId.toJson), ("aggregate_id", e.aggregateId.toJson),
    ("aggregate_type", .str e.aggregateType), ("sequence_number", .nat e.sequenceNumber),
    ("event_type", .str e.eventType), ("event_version", .nat e.eventVersion),
    ("occurred_at", e.occurredAt.toJson), ("payload", e.payload)]

def ofJson? (json : Json) : Option StoredEvent := do
  let r ← Record.ofJson? 8 json
  let eventId ← r.required? 0 "event_id" Uuid.ofJson?
  let aggregateId ← r.required? 1 "aggregate_id" AggregateId.ofJson?
  let aggregateType ← r.required? 2 "aggregate_type" string?
  let sequenceNumber ← r.required? 3 "sequence_number" count64?
  let eventType ← r.required? 4 "event_type" string?
  let eventVersion ← r.required? 5 "event_version" count32?
  let occurredAt ← r.required? 6 "occurred_at" Timestamp.ofJson?
  let payload ← r.required? 7 "payload" some
  pure { eventId, aggregateId, aggregateType, sequenceNumber, eventType, eventVersion,
         occurredAt, payload }

end StoredEvent

end IdentityLedger
