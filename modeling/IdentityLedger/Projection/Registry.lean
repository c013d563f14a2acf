import IdentityLedger.Bus
import IdentityLedger.EventStore.Basic
import IdentityLedger.Projection.Runner
import IdentityLedger.Text.Quoted

/-!
# The projector registry

The registry feeds every committed envelope to all its runners. A failed update never
reaches the command that caused the event: it is queued, at most once for each
projection and event, and can be retried. Every handled event that was applied is
signalled once.
-/
namespace IdentityLedger

/-- The signal that an event has changed a read model. -/
structure ProjectionUpdated where
  projection : String
  aggregateId : AggregateId
  sequenceNumber : Nat
  eventType : String
  deriving DecidableEq

/-- An update that failed and awaits a retry. -/
structure FailedUpdate where
  projection : String
  envelope : Envelope Json
  error : ProjectionError
  attempts : Nat

/-- The same update: of one projection, by one event. -/
def FailedUpdate.isFor (projection : String) (eventId : Uuid) (f : FailedUpdate) : Bool :=
  f.projection = projection ∧ f.envelope.eventId = eventId

/-- What the runners of a registry share: failures to retry, and the signals. -/
structure Outbox where
  failed : List FailedUpdate
  updates : Bus ProjectionUpdated

namespace Outbox
variable {ω : Type}

def empty : Outbox := ⟨[], .new⟩

def queued? (o : Outbox) (projection : String) (eventId : Uuid) : Option FailedUpdate :=
  o.failed.find? (FailedUpdate.isFor projection eventId)

def amend (projection : String) (eventId : Uuid) (f : FailedUpdate → FailedUpdate) :
    List FailedUpdate → List FailedUpdate
  | [] => []
  | failure :: failures =>
    if failure.isFor projection eventId then f failure :: failures
    else failure :: amend projection eventId f failures

def updateOf (projection : String) (event : AppliedEvent) : ProjectionUpdated :=
  ⟨projection, event.aggregateId, event.sequenceNumber, event.eventType⟩

/-- Signals the handled ones among applied events, in order. -/
def signal (o : Outbox) (projection : String) (applied : List AppliedEvent) :
    List ProjectionUpdated × Outbox :=
  let updates := (applied.filter AppliedEvent.handled).map (updateOf projection)
  (updates, { o with updates := updates.foldl Bus.publish o.updates })

variable [Journal ω]

/-- Queues a failed update, or counts one more attempt of one that is queued. -/
def recordFailure (o : Outbox) (projection : String) (e : Envelope Json) (error : ProjectionError) :
    StateM ω Outbox := do
  let (attempts, failed) := match o.queued? projection e.eventId with
    | some existing =>
      (existing.attempts + 1,
        amend projection e.eventId (fun f => { f with attempts := f.attempts + 1, error }) o.failed)
    | none => (1, o.failed ++ [⟨projection, e, error, 1⟩])
  Journal.report .warn "projection update failed; queued for reprocessing"
    [("projection", .text projection), ("aggregate_id", .text e.aggregateId.text),
      ("sequence", .number e.sequenceNumber), ("event_type", .text e.eventType),
      ("attempts", .number attempts), ("error", .text error.message)]
  pure { o with failed }

/-- Puts back a failure whose retry failed. If the same update was queued in the
meantime, their attempts are added up. -/
def requeue (o : Outbox) (failure : FailedUpdate) (error : ProjectionError) : StateM ω Outbox := do
  let eventId := failure.envelope.eventId
  match o.queued? failure.projection eventId with
  | some _ =>
    pure { o with
      failed := amend failure.projection eventId
        (fun f => { f with attempts := f.attempts + failure.attempts, error }) o.failed }
  | none =>
    Journal.report .warn "projection update failed again"
      [("projection", .text failure.projection),
        ("aggregate_id", .text failure.envelope.aggregateId.text),
        ("sequence", .number failure.envelope.sequenceNumber),
        ("attempts", .number (failure.attempts + 1)), ("error", .text error.message)]
    pure { o with failed := o.failed ++ [{ failure with attempts := failure.attempts + 1, error }] }

def recordStalled (projection : String) : List StalledEnvelope → Outbox → StateM ω Outbox
  | [], o => pure o
  | s :: stalled, o => do
    recordStalled projection stalled (← o.recordFailure projection s.envelope s.error)

/-- Signals what a pass applied and queues what stalled in it. -/
def settle (o : Outbox) (projection : String) (progress : Progress) :
    StateM ω (List ProjectionUpdated × Outbox) := do
  let (updates, o) := o.signal projection progress.applied
  let o ← recordStalled projection progress.stalled o
  pure (updates, o)

end Outbox

inductive RebuildError where
  | store (error : EventStoreError)
  | projection (name : String) (error : ProjectionError)

def RebuildError.message : RebuildError → String
  | store error => "failed to read the event log: " ++ error.message
  | projection name error => "projection " ++ name ++ " failed to rebuild: " ++ error.message

structure Registry (ω : Type) where
  runners : List (Runner ω)
  outbox : Outbox

namespace Registry
variable {ω : Type}

def new (runners : List (Runner ω)) : Registry ω := ⟨runners, .empty⟩

def names (r : Registry ω) : List String := r.runners.map Runner.name

def failures (r : Registry ω) : List FailedUpdate := r.outbox.failed

def failedCount (r : Registry ω) : Nat := r.failures.length

def subscribeUpdates (r : Registry ω) : Nat × Registry ω :=
  let (number, updates) := r.outbox.updates.subscribe
  (number, { r with outbox := { r.outbox with updates } })

def takeUpdates (r : Registry ω) (subscription : Nat) : List ProjectionUpdated × Registry ω :=
  let (taken, updates) := r.outbox.updates.drain subscription
  (taken.getD [], { r with outbox := { r.outbox with updates } })

def text (r : Registry ω) : String :=
  "ProjectorRegistry \x7b projectors: " ++ Text.quotedList r.names ++ ", failed: " ++
    toString r.failedCount ++ " \x7d"

variable [Journal ω]

/-- Feeds one envelope to one runner. -/
def feed (runner : Runner ω) (e : Envelope Json) (o : Outbox) :
    StateM ω (List ProjectionUpdated × Runner ω × Outbox) := do
  match ← runner.apply e with
  | (.ok (.applied progress), runner) =>
    let (updates, o) ← o.settle runner.name progress
    pure (updates, runner, o)
  | (.ok _, runner) => pure ([], runner, o)
  | (.error error, runner) => pure ([], runner, ← o.recordFailure runner.name e error)

def feedAll (e : Envelope Json) : List (Runner ω) → Outbox →
    StateM ω (List ProjectionUpdated × List (Runner ω) × Outbox)
  | [], o => pure ([], [], o)
  | runner :: runners, o => do
    let (first, runner, o) ← feed runner e o
    let (rest, runners, o) ← feedAll e runners o
    pure (first ++ rest, runner :: runners, o)

/-- Applies one committed envelope with every runner and returns the updates it caused. -/
def dispatch (r : Registry ω) (e : Envelope Json) :
    StateM ω (List ProjectionUpdated × Registry ω) := do
  let (updates, runners, outbox) ← feedAll e r.runners r.outbox
  pure (updates, ⟨runners, outbox⟩)

def dispatchAll (r : Registry ω) : List (Envelope Json) → StateM ω (Registry ω)
  | [] => pure r
  | e :: envelopes => do
    let (_, r) ← r.dispatch e
    r.dispatchAll envelopes

def drainRunners : List (Runner ω) → Outbox → StateM ω (List (Runner ω) × Outbox)
  | [], o => pure ([], o)
  | runner :: runners, o => do
    let (progress, runner) ← runner.retryParked
    let (_, o) ← o.settle runner.name progress
    let (runners, o) ← drainRunners runners o
    pure (runner :: runners, o)

def drainParked (r : Registry ω) : StateM ω (Registry ω) := do
  let (runners, outbox) ← drainRunners r.runners r.outbox
  pure ⟨runners, outbox⟩

/-- Retries one failure with the first runner of its projection. Tells whether it is
resolved; a failure without a runner is dropped. -/
def retryOne (failure : FailedUpdate) : List (Runner ω) → Outbox →
    StateM ω (Bool × List (Runner ω) × Outbox)
  | [], o => pure (false, [], o)
  | runner :: runners, o =>
    if runner.name = failure.projection then do
      match ← runner.apply failure.envelope with
      | (.ok (.applied progress), runner) =>
        let (_, o) ← o.settle failure.projection progress
        pure (true, runner :: runners, o)
      | (.ok _, runner) => pure (true, runner :: runners, o)
      | (.error error, runner) => pure (false, runner :: runners, ← o.requeue failure error)
    else do
      let (resolved, runners, o) ← retryOne failure runners o
      pure (resolved, runner :: runners, o)

def retryEach : List FailedUpdate → List (Runner ω) → Outbox →
    StateM ω (Nat × List (Runner ω) × Outbox)
  | [], runners, o => pure (0, runners, o)
  | failure :: failures, runners, o => do
    let (resolved, runners, o) ← retryOne failure runners o
    let (count, runners, o) ← retryEach failures runners o
    pure ((if resolved then 1 else 0) + count, runners, o)

/-- Retries all queued failures, then what is parked behind them, and counts the failures
that are resolved. -/
def retryFailed (r : Registry ω) : StateM ω (Nat × Registry ω) := do
  let (resolved, runners, outbox) ← retryEach r.failures r.runners { r.outbox with failed := [] }
  let r ← drainParked ⟨runners, outbox⟩
  if resolved > 0 then
    Journal.report .info "reprocessed failed projection updates"
      [("resolved", .number resolved), ("remaining", .number r.failedCount)]
  pure (resolved, r)

/-- Feeds the whole log through every runner, which skips what it has applied. -/
def catchUp (r : Registry ω) (store : EventStore ω) :
    StateM ω (Except EventStoreError Nat × Registry ω) := do
  match ← store.loadAll with
  | .error error => pure (.error error, r)
  | .ok log =>
    let r ← r.dispatchAll (log.map StoredEvent.envelope)
    let r ← r.drainParked
    Journal.report .debug "projection catch-up complete" [("events", .number log.length)]
    pure (.ok log.length, r)

def rebuildRunners (envelopes : List (Envelope Json)) : Nat → List (Runner ω) → Outbox →
    StateM ω (Except RebuildError Nat × List (Runner ω) × Outbox)
  | total, [], o => pure (.ok total, [], o)
  | total, runner :: runners, o => do
    match ← runner.rebuild envelopes with
    | (.error error, runner) => pure (.error (.projection runner.name error), runner :: runners, o)
    | (.ok applied, runner) =>
      let o := { o with failed := o.failed.filter fun f => f.projection ≠ runner.name }
      Journal.report .info "projection rebuilt"
        [("projection", .text runner.name), ("applied", .number applied)]
      let (result, runners, o) ← rebuildRunners envelopes (total + applied) runners o
      pure (result, runner :: runners, o)

/-- Empties every read model and replays the whole log. -/
def rebuild (r : Registry ω) (store : EventStore ω) :
    StateM ω (Except RebuildError Nat × Registry ω) := do
  match ← store.loadAll with
  | .error error => pure (.error (.store error), r)
  | .ok log =>
    let (result, runners, outbox) ←
      rebuildRunners (log.map StoredEvent.envelope) 0 r.runners r.outbox
    pure (result, ⟨runners, outbox⟩)

end Registry

end IdentityLedger
