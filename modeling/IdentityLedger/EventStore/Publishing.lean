import IdentityLedger.Bus
import IdentityLedger.EventStore.Basic
import IdentityLedger.Journal

/-!
# Publishing what is committed

A store that publishes each committed event after the append succeeded. A failed
publication is reported and does not undo the append: the events are durable, and a
subscriber can catch up from the store.
-/
namespace IdentityLedger.EventStore
variable {ω : Type} [Journal ω]

/-- Publishes committed events one by one, in order. -/
def publishAll (publisher : Publisher ω (Envelope Json)) (target : AggregateId) :
    List StoredEvent → StateM ω Unit
  | [] => pure ()
  | event :: events => do
    match ← publisher.publish event.envelope with
    | .ok () => pure ()
    | .error reason =>
      Journal.report .warn "failed to publish committed event"
        [("aggregate_id", .text target.text), ("sequence", .number event.sequenceNumber),
          ("error", .text reason)]
    publishAll publisher target events

def publishing (store : EventStore ω) (publisher : Publisher ω (Envelope Json)) : EventStore ω where
  append id expected events := do
    match ← store.append id expected events with
    | .error error => pure (.error error)
    | .ok committed =>
      publishAll publisher id committed
      pure (.ok committed)
  loadStream := store.loadStream
  loadAll := store.loadAll

end IdentityLedger.EventStore
