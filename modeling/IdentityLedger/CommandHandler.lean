import IdentityLedger.Config.Retry
import IdentityLedger.Repository

/-!
# The command handler

A command is handled in cycles of load, decide and commit. A cycle that loses the
race to another writer is repeated on freshly loaded state, as often as the retry
policy allows. A creation is never repeated: losing the race means that the id is
taken.
-/
namespace IdentityLedger

structure CommandOutcome where
  aggregateId : AggregateId
  /-- The stream's version after the commit. -/
  version : Nat
  committed : List StoredEvent
  attempts : Nat

structure CommandHandler (ω : Type) where
  store : EventStore ω
  retry : RetryPolicy

namespace CommandHandler
variable {ω : Type}

def outcome (id : AggregateId) (attempts : Nat) (committed : List StoredEvent) : CommandOutcome where
  aggregateId := id
  version := (committed.getLast?.map StoredEvent.sequenceNumber).getD 0
  committed
  attempts

/-- The attempts after the first one that a policy allows. -/
def repetitions (retry : RetryPolicy) : Nat := max 1 retry.maxAttempts - 1

def text (h : CommandHandler ω) (synchronous : Bool) : String :=
  "CommandHandler \x7b retry: " ++ h.retry.text ++ ", synchronous_projection: " ++
    (if synchronous then "true" else "false") ++ " \x7d"

variable [IdSupply ω] [Journal ω]

def attempt (h : CommandHandler ω) (id : AggregateId) (command : ProfileCommand) :
    StateM ω (Except DispatchError (List StoredEvent)) := do
  match ← (if command.target.isCreation then pure (.ok (.blank id))
      else Repository.load h.store id) with
  | .error error => pure (.error error)
  | .ok profile =>
    match profile.handle command with
    | (.error error, _) => pure (.error (.ofDomain id error))
    | (.ok (), profile) => do
      let (result, _) ← Repository.commit h.store profile
      pure result

/-- Cycles from attempt number `attempt` on, with `more` repetitions left. -/
def cycles (h : CommandHandler ω) (id : AggregateId) (command : ProfileCommand) :
    Nat → Nat → StateM ω (Except DispatchError CommandOutcome)
  | more, attempt => do
    match ← h.attempt id command with
    | .ok committed =>
      let result := outcome id attempt committed
      Journal.report .debug "command committed"
        [("aggregate_id", .text id.text), ("version", .number result.version),
          ("events", .number committed.length), ("attempt", .number attempt)]
      pure (.ok result)
    | .error (.concurrency reason) =>
      if command.target.isCreation then pure (.error (.alreadyExists id))
      else
        match more with
        | 0 =>
          Journal.report .warn "giving up after repeated concurrency conflicts"
            [("aggregate_id", .text id.text), ("attempts", .number attempt), ("reason", .text reason)]
          pure (.error (.conflict id attempt))
        | more + 1 =>
          match h.retry.delayAfter attempt with
          | none => pure (.error (.delayTooLong attempt))
          | some delay =>
            Journal.report .warn "concurrency conflict; reloading and retrying"
              [("aggregate_id", .text id.text), ("attempt", .number attempt),
                ("reason", .text reason), ("delay_ms", .number (delay.millis % UInt64.size))]
            h.cycles id command more (attempt + 1)
    | .error error => pure (.error error)

/-- The aggregate a command is for; a creation without an id gets a fresh one. -/
def allocate (command : ProfileCommand) : StateM ω AggregateId :=
  match command.target.aggregateId with
  | some id => pure id
  | none => do pure ⟨← IdSupply.fresh⟩

/-- Handles one command. A failure is reported. -/
def handle (h : CommandHandler ω) (command : ProfileCommand) :
    StateM ω (Except DispatchError CommandOutcome) := do
  let id ← allocate command
  match ← h.cycles id command (repetitions h.retry) 1 with
  | .ok result => pure (.ok result)
  | .error error =>
    Journal.reportFailure error.message
    pure (.error error)

end CommandHandler

end IdentityLedger
