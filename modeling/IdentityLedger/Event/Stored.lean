import IdentityLedger.Profile.Json

/-!
# Stored events

A new event is wrapped with its metadata and ready to be appended; appending gives
it its number and makes it a stored event. Numbers of a stream are gapless and start at 1.
An envelope carries a committed event to its consumers, which dispatch on the event type
and need not decode what they do not know.
-/
namespace IdentityLedger

structure Envelope (α : Type) where
  eventId : Uuid
  aggregateId : AggregateId
  aggregateType : String
  sequenceNumber : Nat
  eventType : String
  occurredAt : Timestamp
  payload : α

def Envelope.withPayload {α β : Type} (envelope : Envelope α) (payload : β) : Envelope β :=
  { envelope with payload }

structure NewEvent where
  eventId : Uuid
  aggregateId : AggregateId
  aggregateType : String
  eventType : String
  eventVersion : Nat
  occurredAt : Timestamp
  payload : Json

structure StoredEvent where
  eventId : Uuid
  aggregateId : AggregateId
  aggregateType : String
  sequenceNumber : Nat
  eventType : String
  eventVersion : Nat
  occurredAt : Timestamp
  payload : Json

namespace NewEvent

/-- Wraps a profile event for a stream. -/
def ofProfileEvent (aggregateId : AggregateId) (aggregateType : String) (eventId : Uuid)
    (event : ProfileEvent) : NewEvent where
  eventId
  aggregateId
  aggregateType
  eventType := event.eventType
  eventVersion := event.schemaVersion
  occurredAt := event.occurredAt
  payload := event.toJson

def numbered (event : NewEvent) (sequenceNumber : Nat) : StoredEvent where
  eventId := event.eventId
  aggregateId := event.aggregateId
  aggregateType := event.aggregateType
  sequenceNumber
  eventType := event.eventType
  eventVersion := event.eventVersion
  occurredAt := event.occurredAt
  payload := event.payload

end NewEvent

namespace StoredEvent

def streamVersion (event : StoredEvent) : Nat := event.sequenceNumber

def envelope (event : StoredEvent) : Envelope Json where
  eventId := event.eventId
  aggregateId := event.aggregateId
  aggregateType := event.aggregateType
  sequenceNumber := event.sequenceNumber
  eventType := event.eventType
  occurredAt := event.occurredAt
  payload := event.payload

def profileEvent? (event : StoredEvent) : Option ProfileEvent := ProfileEvent.ofJson? event.payload

end StoredEvent

end IdentityLedger
