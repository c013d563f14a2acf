import IdentityLedger.Cursor
import IdentityLedger.Journal
import IdentityLedger.Projection.Backlog
import IdentityLedger.Projection.Basic

/-!
# Projection runners

A runner turns a stream of envelopes that may be repeated and out of order into one
that is in order for each aggregate, each event once. It compares an envelope with
the cursor of its stream: one that is behind is a duplicate, the next one is
applied, and one that is ahead is parked until the gap is filled.
-/
namespace IdentityLedger

/-- An envelope that moved a cursor. It is not handled if the projection does not know
its type. -/
structure AppliedEvent where
  aggregateId : AggregateId
  sequenceNumber : Nat
  eventType : String
  handled : Bool
  deriving DecidableEq

/-- A parked envelope whose replay failed. It is not parked any more: whoever receives it
has to submit it again. -/
structure StalledEnvelope where
  envelope : Envelope Json
  error : ProjectionError

/-- What a pass over the ready envelopes of a stream achieved. -/
structure Progress where
  applied : List AppliedEvent
  stalled : List StalledEnvelope

namespace Progress

def none : Progress := ⟨[], []⟩

def append (p q : Progress) : Progress := ⟨p.applied ++ q.applied, p.stalled ++ q.stalled⟩

end Progress

inductive ApplyOutcome where
  | applied (progress : Progress)
  | duplicate
  | parked

structure Runner (ω : Type) where
  projection : Projection ω
  cursors : CursorStore ω
  backlog : Backlog

namespace Runner
variable {ω : Type}

def new (projection : Projection ω) (cursors : CursorStore ω) : Runner ω :=
  ⟨projection, cursors, .empty⟩

def name (r : Runner ω) : String := r.projection.name

def parkedCount (r : Runner ω) : Nat := r.backlog.size

/-- The number of the last applied event of a stream; 0 if there is none. -/
def cursor (r : Runner ω) (id : AggregateId) : StateM ω Nat := do
  pure ((← r.cursors.get r.name id).getD 0)

/-- Applies the envelope that is next in its stream and moves the cursor. A failure moves
nothing. -/
def applyNext (r : Runner ω) (e : Envelope Json) : StateM ω (Except ProjectionError AppliedEvent) := do
  let handled := r.projection.handles e.eventType
  match ← (if handled then r.projection.receive e else pure (.ok ())) with
  | .error error => pure (.error error)
  | .ok () =>
    r.cursors.update r.name e.aggregateId e.sequenceNumber
    pure (.ok ⟨e.aggregateId, e.sequenceNumber, e.eventType, handled⟩)

def withBacklog (r : Runner ω) (backlog : Backlog) : Runner ω := { r with backlog }

def text (r : Runner ω) : String :=
  "ProjectionRunner \x7b projection: ProfileProjection \x7b .. \x7d, parked: " ++
    toString r.parkedCount ++ " \x7d"

variable [Journal ω]

/-- Applies parked envelopes of a stream while the next one is there. Each round takes one
envelope off the backlog, so there are at most as many rounds as parked envelopes. -/
def drainRounds (r : Runner ω) (id : AggregateId) : Nat → Backlog → StateM ω (Progress × Backlog)
  | 0, backlog => pure (.none, backlog)
  | rounds + 1, backlog => do
    let next := (← r.cursor id) + 1
    match backlog.find? id next with
    | none => pure (.none, backlog)
    | some e =>
      let backlog := backlog.remove id next
      match ← r.applyNext e with
      | .ok event =>
        let (progress, backlog) ← r.drainRounds id rounds backlog
        pure (⟨event :: progress.applied, progress.stalled⟩, backlog)
      | .error error =>
        Journal.report .warn "parked envelope failed; handing it back"
          [("projection", .text r.name), ("aggregate_id", .text id.text),
            ("sequence", .number next), ("error", .text error.message)]
        pure (⟨[], [⟨e, error⟩]⟩, backlog)

/-- Drains a stream's parked envelopes, then drops those the cursor has passed. -/
def drain (r : Runner ω) (id : AggregateId) : StateM ω (Progress × Runner ω) := do
  let (progress, backlog) ← r.drainRounds id (r.backlog.size + 1) r.backlog
  let cursor ← r.cursor id
  pure (progress, r.withBacklog (backlog.prune id cursor))

/-- Submits one committed envelope. -/
def apply (r : Runner ω) (e : Envelope Json) :
    StateM ω (Except ProjectionError ApplyOutcome × Runner ω) := do
  let last ← r.cursor e.aggregateId
  let found := e.sequenceNumber
  if found = 0 then pure (.error (.nonMonotonicSequence last found), r)
  else if found ≤ last then
    Journal.report .debug "duplicate envelope skipped"
      [("projection", .text r.name), ("aggregate_id", .text e.aggregateId.text),
        ("sequence", .number found)]
    pure (.ok .duplicate, r)
  else if found > last + 1 then
    Journal.report .debug "envelope parked until gap is filled"
      [("projection", .text r.name), ("aggregate_id", .text e.aggregateId.text),
        ("last", .number last), ("found", .number found)]
    pure (.ok .parked, r.withBacklog (r.backlog.park e))
  else
    match ← r.applyNext e with
    | .error error => pure (.error error, r)
    | .ok event =>
      let (progress, r) ← r.drain e.aggregateId
      pure (.ok (.applied ⟨event :: progress.applied, progress.stalled⟩), r)

def drainAll (r : Runner ω) : List AggregateId → StateM ω (Progress × Runner ω)
  | [] => pure (.none, r)
  | id :: ids => do
    let (first, r) ← r.drain id
    let (rest, r) ← r.drainAll ids
    pure (first.append rest, r)

/-- Tries the parked envelopes whose predecessor has been applied since. -/
def retryParked (r : Runner ω) : StateM ω (Progress × Runner ω) :=
  r.drainAll r.backlog.aggregates

/-- Empties the read model, its cursors and the backlog. -/
def reset (r : Runner ω) : StateM ω (Except ProjectionError Unit × Runner ω) := do
  match ← r.projection.reset with
  | .error error => pure (.error error, r)
  | .ok () =>
    r.cursors.clear r.name
    pure (.ok (), r.withBacklog .empty)

/-- Applies envelopes one by one and counts those applied, up to the first error. -/
def replay (r : Runner ω) : Nat → List (Envelope Json) → StateM ω (Except ProjectionError Nat × Runner ω)
  | count, [] => pure (.ok count, r)
  | count, e :: envelopes => do
    match ← r.apply e with
    | (.error error, r) => pure (.error error, r)
    | (.ok (.applied progress), r) =>
      match progress.stalled with
      | stalled :: _ => pure (.error stalled.error, r)
      | [] => r.replay (count + progress.applied.length) envelopes
    | (.ok _, r) => r.replay count envelopes

/-- Starts over and replays a whole history. What is still parked at the end shows a gap. -/
def rebuild (r : Runner ω) (envelopes : List (Envelope Json)) :
    StateM ω (Except ProjectionError Nat × Runner ω) := do
  match ← r.reset with
  | (.error error, r) => pure (.error error, r)
  | (.ok (), r) =>
    match ← r.replay 0 envelopes with
    | (.error error, r) => pure (.error error, r)
    | (.ok count, r) =>
      match r.backlog.aggregates with
      | [] => pure (.ok count, r)
      | id :: _ => do
        let last ← r.cursor id
        pure (.error (.incompleteHistory id last), r)

end Runner

end IdentityLedger
