import IdentityLedger.DispatchError
import IdentityLedger.Journal
import IdentityLedger.Profile.Decision

/-!
# The repository

Loading replays a profile from its stream, after a check that the stream is a
gapless run from 1. Committing appends what the profile has decided, expecting the
version that was loaded; if that fails, the profile is left as it was.
-/
namespace IdentityLedger

/-- A supply of identifiers, no two of them equal. -/
class IdSupply (ω : Type) where
  fresh : ω → Uuid × ω

namespace Repository

def streamError? (id : AggregateId) : Nat → List StoredEvent → Option DispatchError
  | _, [] => none
  | index, event :: events =>
    if event.aggregateId ≠ id then
      some (.corruptStream ("loaded stream for " ++ id.text ++ " contains " ++
        event.aggregateId.text ++ " at index " ++ toString index))
    else if event.sequenceNumber ≠ index + 1 then
      some (.corruptStream ("expected sequence_number " ++ toString (index + 1) ++ " at index " ++
        toString index ++ ", found " ++ toString event.sequenceNumber))
    else streamError? id (index + 1) events

/-- Decodes and applies stored events, up to the first that does not decode. -/
def applyStored (p : Profile) : List StoredEvent → Except DispatchError Profile
  | [] => .ok p
  | event :: events =>
    match ProfileEvent.decode event.payload with
    | .error cause => .error (.deserialize event.eventType event.sequenceNumber cause)
    | .ok e => applyStored (p.apply e) events

/-- The profile that a stream describes. -/
def replayStream (id : AggregateId) (stream : List StoredEvent) : Except DispatchError Profile :=
  match stream with
  | [] => .error (.notFound id)
  | _ =>
    match streamError? id 0 stream with
    | some error => .error error
    | none => applyStored (.blank id) stream

variable {ω : Type}

def load (store : EventStore ω) (id : AggregateId) : StateM ω (Except DispatchError Profile) := do
  match ← store.loadStream id with
  | .error error => pure (.error (.ofStore error))
  | .ok stream => pure (replayStream id stream)

/-- Like `load`, but an id without history yields a blank profile. -/
def loadOrBlank (store : EventStore ω) (id : AggregateId) :
    StateM ω (Except DispatchError Profile) := do
  match ← load store id with
  | .error (.notFound _) => pure (.ok (.blank id))
  | result => pure result

variable [IdSupply ω]

def wrap (id : AggregateId) : List ProfileEvent → StateM ω (List NewEvent)
  | [] => pure []
  | event :: events => do
    let eventId ← IdSupply.fresh
    let rest ← wrap id events
    pure (NewEvent.ofProfileEvent id Profile.aggregateType eventId event :: rest)

/-- Appends what a profile has decided. On success the profile has nothing left to commit. -/
def commit [Journal ω] (store : EventStore ω) (p : Profile) :
    StateM ω (Except DispatchError (List StoredEvent) × Profile) :=
  if p.uncommitted.isEmpty then pure (.ok [], p)
  else do
    let expected := ExpectedVersion.exact p.committedVersion
    let events ← wrap p.id p.uncommitted.events
    match ← store.append p.id expected events with
    | .error error => pure (.error (.ofStore error), p)
    | .ok committed =>
      Journal.report .debug "events appended"
        [("aggregate_id", .text p.id.text), ("aggregate_type", .text Profile.aggregateType),
          ("expected", .text expected.text), ("committed", .number committed.length)]
      pure (.ok committed, p.markCommitted)

end Repository

end IdentityLedger
