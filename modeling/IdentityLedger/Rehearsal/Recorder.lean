import IdentityLedger.Cell
import IdentityLedger.Projection.Basic

/-!
# Recorders

A recorder is a projection that only notes which events it was given. It refuses the
event types it is told to refuse.
-/
namespace IdentityLedger.Rehearsal

structure Sighting where
  recorder : String
  aggregateId : AggregateId
  sequenceNumber : Nat
  eventType : String

structure Recordings where
  refused : List String
  seen : List Sighting

namespace Recordings

def empty : Recordings := ⟨[], []⟩

/-- Notes an event, unless its type is refused. -/
def note (name : String) (e : Envelope ProfileEvent) (r : Recordings) :
    Except ProjectionError Unit × Recordings :=
  if r.refused.contains e.eventType then (.error (.store ("refused " ++ e.eventType)), r)
  else
    (.ok (), { r with seen := r.seen ++ [⟨name, e.aggregateId, e.sequenceNumber, e.eventType⟩] })

def forget (name : String) (r : Recordings) : Recordings :=
  { r with seen := r.seen.filter fun s => s.recorder ≠ name }

end Recordings

def recorder {ω : Type} (cell : Cell ω Recordings) (name : String) (eventTypes : List String) :
    Projection ω where
  name
  handles := eventTypes.contains
  receive := Projection.decoded ProfileEvent.decode fun e => cell.run (Recordings.note name e)
  reset := cell.run fun r => (.ok (), r.forget name)

end IdentityLedger.Rehearsal
