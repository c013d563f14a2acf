import IdentityLedger.CommandHandler
import IdentityLedger.Proofs.Plan
import IdentityLedger.Proofs.Steps

/-!
# The plan of a command handler

What a handler does, as the requests it makes: fresh ids, reports, and the loads and appends
by which alone it gets at the log. Performed against any store the plan is the handler;
once a batch of it has landed, it makes no further request of the store.
-/
namespace IdentityLedger

inductive HandlerRequest
  | fresh
  | note (record : JournalRecord)
  | load (id : AggregateId)
  | append (id : AggregateId) (expected : ExpectedVersion) (events : List NewEvent)

namespace HandlerRequest

def Answer : HandlerRequest → Type
  | fresh => Uuid
  | note _ => Unit
  | load _ => Except EventStoreError (List StoredEvent)
  | append _ _ _ => Except EventStoreError (List StoredEvent)

def IsOfStore : HandlerRequest → Prop
  | fresh | note _ => False
  | load _ | append _ _ _ => True

def Lands : (request : HandlerRequest) → request.Answer → Prop
  | fresh, _ | note _, _ | load _, _ => False
  | append _ _ _, given => given.isOk = true

theorem isOfStore_of_lands (request : HandlerRequest) (given : request.Answer)
    (h : request.Lands given) : request.IsOfStore := by
  cases request with
  | append => trivial
  | fresh | note | load => exact False.elim h

variable {ω : Type} [IdSupply ω] [Journal ω]

def answer (store : EventStore ω) : (request : HandlerRequest) → StateM ω request.Answer
  | fresh => IdSupply.fresh
  | note record => modify (Journal.note record)
  | load id => store.loadStream id
  | append id expected events => store.append id expected events

end HandlerRequest

abbrev HandlerPlan (α : Type) := Plan HandlerRequest.Answer α

namespace HandlerPlan

def freshId : HandlerPlan Uuid := Plan.request HandlerRequest.Answer .fresh

def note (record : JournalRecord) : HandlerPlan Unit :=
  Plan.request HandlerRequest.Answer (.note record)

def report (level : Level) (message : String) (fields : List (String × FieldValue)) :
    HandlerPlan Unit :=
  note ⟨level, some message, fields⟩

def loadStream (id : AggregateId) : HandlerPlan (Except EventStoreError (List StoredEvent)) :=
  Plan.request HandlerRequest.Answer (.load id)

def append (id : AggregateId) (expected : ExpectedVersion) (events : List NewEvent) :
    HandlerPlan (Except EventStoreError (List StoredEvent)) :=
  Plan.request HandlerRequest.Answer (.append id expected events)

def load (id : AggregateId) : HandlerPlan (Except DispatchError Profile) := do
  match ← loadStream id with
  | .error error => pure (.error (.ofStore error))
  | .ok stream => pure (Repository.replayStream id stream)

def wrap (id : AggregateId) : List ProfileEvent → HandlerPlan (List NewEvent)
  | [] => pure []
  | event :: events => do
    let eventId ← freshId
    let rest ← wrap id events
    pure (NewEvent.ofProfileEvent id Profile.aggregateType eventId event :: rest)

def commit (p : Profile) : HandlerPlan (Except DispatchError (List StoredEvent) × Profile) :=
  if p.uncommitted.isEmpty then pure (.ok [], p)
  else do
    let expected := ExpectedVersion.exact p.committedVersion
    let events ← wrap p.id p.uncommitted.events
    match ← append p.id expected events with
    | .error error => pure (.error (.ofStore error), p)
    | .ok committed =>
      report .debug "events appended"
        [("aggregate_id", .text p.id.text), ("aggregate_type", .text Profile.aggregateType),
          ("expected", .text expected.text), ("committed", .number committed.length)]
      pure (.ok committed, p.markCommitted)

def attempt (id : AggregateId) (command : ProfileCommand) :
    HandlerPlan (Except DispatchError (List StoredEvent)) := do
  match ← (if command.target.isCreation then pure (.ok (.blank id)) else load id) with
  | .error error => pure (.error error)
  | .ok profile =>
    match profile.handle command with
    | (.error error, _) => pure (.error (.ofDomain id error))
    | (.ok (), profile) => do
      let (result, _) ← commit profile
      pure result

def cycles (retry : RetryPolicy) (id : AggregateId) (command : ProfileCommand) :
    Nat → Nat → HandlerPlan (Except DispatchError CommandOutcome)
  | more, number => do
    match ← attempt id command with
    | .ok committed =>
      let result := CommandHandler.outcome id number committed
      report .debug "command committed"
        [("aggregate_id", .text id.text), ("version", .number result.version),
          ("events", .number committed.length), ("attempt", .number number)]
      pure (.ok result)
    | .error (.concurrency reason) =>
      if command.target.isCreation then pure (.error (.alreadyExists id))
      else
        match more with
        | 0 =>
          report .warn "giving up after repeated concurrency conflicts"
            [("aggregate_id", .text id.text), ("attempts", .number number), ("reason", .text reason)]
          pure (.error (.conflict id number))
        | more + 1 =>
          match retry.delayAfter number with
          | none => pure (.error (.delayTooLong number))
          | some delay =>
            report .warn "concurrency conflict; reloading and retrying"
              [("aggregate_id", .text id.text), ("attempt", .number number),
                ("reason", .text reason), ("delay_ms", .number (delay.millis % UInt64.size))]
            cycles retry id command more (number + 1)
    | .error error => pure (.error error)

def allocate (command : ProfileCommand) : HandlerPlan AggregateId :=
  match command.target.aggregateId with
  | some id => pure id
  | none => do pure ⟨← freshId⟩

def handle (retry : RetryPolicy) (command : ProfileCommand) :
    HandlerPlan (Except DispatchError CommandOutcome) := do
  let id ← allocate command
  match ← cycles retry id command (CommandHandler.repetitions retry) 1 with
  | .ok result => pure (.ok result)
  | .error error =>
    note ⟨.error, none, [("error", .text error.message)]⟩
    pure (.error error)

section Perform
variable {ω : Type} [IdSupply ω] [Journal ω] (store : EventStore ω) (retry : RetryPolicy)

@[simp] theorem perform_freshId :
    freshId.perform (HandlerRequest.answer store) = IdSupply.fresh :=
  Plan.perform_request (HandlerRequest.answer store) .fresh

@[simp] theorem perform_note (record : JournalRecord) :
    (note record).perform (HandlerRequest.answer store) = modify (Journal.note record) :=
  Plan.perform_request (HandlerRequest.answer store) (.note record)

@[simp] theorem perform_loadStream (id : AggregateId) :
    (loadStream id).perform (HandlerRequest.answer store) = store.loadStream id :=
  Plan.perform_request (HandlerRequest.answer store) (.load id)

@[simp] theorem perform_append (id : AggregateId) (expected : ExpectedVersion)
    (events : List NewEvent) : (append id expected events).perform (HandlerRequest.answer store) =
      store.append id expected events :=
  Plan.perform_request (HandlerRequest.answer store) (.append id expected events)

@[simp] theorem perform_load (id : AggregateId) :
    (load id).perform (HandlerRequest.answer store) = Repository.load store id := by
  rw [load, Plan.perform_bind, perform_loadStream]
  refine bind_congr fun given => ?_
  cases given <;> rfl

@[simp] theorem perform_wrap (id : AggregateId) (events : List ProfileEvent) :
    (wrap id events).perform (HandlerRequest.answer store) = Repository.wrap id events := by
  induction events with
  | nil => rfl
  | cons event events ih =>
    simp only [wrap, Repository.wrap, Plan.perform_bind, perform_freshId, ih, Plan.perform_pure]

@[simp] theorem perform_commit (p : Profile) :
    (commit p).perform (HandlerRequest.answer store) = Repository.commit store p := by
  rw [commit, Repository.commit]
  split
  · rfl
  · simp only [Plan.perform_bind, perform_append, perform_wrap]
    refine bind_congr fun events => bind_congr fun given => ?_
    cases given with
    | error error => rfl
    | ok committed =>
      simp only [report, Journal.report, Plan.perform_bind, perform_note, Plan.perform_pure]

theorem perform_attempt (id : AggregateId) (command : ProfileCommand) :
    (attempt id command).perform (HandlerRequest.answer store) =
      CommandHandler.attempt ⟨store, retry⟩ id command := by
  rw [attempt, CommandHandler.attempt, Plan.perform_bind, apply_ite (Plan.perform _),
    Plan.perform_pure, perform_load]
  refine bind_congr fun start => ?_
  cases start with
  | error error => rfl
  | ok profile =>
    simp only
    obtain ⟨_ | _, after⟩ := profile.handle command
    · rfl
    · simp only [Plan.perform_bind, perform_commit, Plan.perform_pure]

theorem perform_cycles (id : AggregateId) (command : ProfileCommand) (more number : Nat) :
    (cycles retry id command more number).perform (HandlerRequest.answer store) =
      CommandHandler.cycles ⟨store, retry⟩ id command more number := by
  induction more using Nat.strongRecOn generalizing number with
  | _ more ih =>
    rw [cycles, CommandHandler.cycles, Plan.perform_bind, perform_attempt store retry]
    refine bind_congr fun result => ?_
    rcases result with error | committed
    · cases error with
      | concurrency reason =>
        simp only [report, Journal.report]
        split
        · rfl
        · cases more with
          | zero => simp only [Plan.perform_bind, perform_note, Plan.perform_pure]
          | succ fewer =>
            cases retry.delayAfter number with
            | none => rfl
            | some delay => simp only [Plan.perform_bind, perform_note, ih fewer (Nat.lt_succ_self fewer)]
      | _ => rfl
    · simp only [report, Journal.report, Plan.perform_bind, perform_note, Plan.perform_pure]

theorem perform_allocate (command : ProfileCommand) :
    (allocate command).perform (HandlerRequest.answer store) = CommandHandler.allocate command := by
  rw [allocate, CommandHandler.allocate]
  cases command.target.aggregateId with
  | some id => rfl
  | none => simp only [Plan.perform_bind, perform_freshId, Plan.perform_pure]

/-- The plan is what the handler does. -/
theorem perform_handle (command : ProfileCommand) :
    (handle retry command).perform (HandlerRequest.answer store) =
      CommandHandler.handle ⟨store, retry⟩ command := by
  simp only [handle, CommandHandler.handle, Plan.perform_bind, perform_allocate, perform_cycles]
  refine bind_congr fun id => bind_congr fun result => ?_
  cases result with
  | ok outcome => rfl
  | error error =>
    simp only [Journal.reportFailure, Plan.perform_bind, perform_note, Plan.perform_pure]

end Perform

/-- A plan that makes no further request of the store, and comes to a good result. -/
abbrev Rests {α : Type} (good : α → Prop) (plan : HandlerPlan α) : Prop :=
  plan.Avoids HandlerRequest.IsOfStore good

/-- A plan that rests once a batch of it has landed. -/
abbrev Settles {α : Type} (good : α → Prop) (plan : HandlerPlan α) : Prop :=
  Plan.Settles HandlerRequest.IsOfStore HandlerRequest.Lands good plan

section Settling
variable {α β : Type} {good : α → Prop}

theorem Rests.settles {plan : HandlerPlan α} (h : Rests good plan) {best : α → Prop} :
    Settles best plan :=
  Plan.Avoids.settles HandlerRequest.isOfStore_of_lands h

theorem rests_note {f : Unit → HandlerPlan α} (record : JournalRecord) (h : Rests good (f ())) :
    Rests good (note record >>= f) := ⟨id, fun _ => h⟩

theorem settles_note {f : Unit → HandlerPlan α} (record : JournalRecord) (h : Settles good (f ())) :
    Settles good (note record >>= f) := fun _ => ⟨False.elim, fun _ => h⟩

theorem settles_bind {plan : HandlerPlan β} {f : β → HandlerPlan α}
    (h : Settles (fun _ => False) plan) (hnext : ∀ b, Settles good (f b)) :
    Settles good (plan >>= f) :=
  h.bind hnext fun _ => False.elim

theorem rests_wrap (id : AggregateId) (events : List ProfileEvent) :
    Rests (fun _ => True) (wrap id events) := by
  induction events with
  | nil => trivial
  | cons event events ih => exact ⟨nofun, fun _ => ih.bind fun _ _ => trivial⟩

theorem settles_append (id : AggregateId) (expected : ExpectedVersion) (events : List NewEvent) :
    Settles (·.isOk = true) (append id expected events) :=
  fun _ => ⟨fun hlands => hlands, fun _ => trivial⟩

theorem settles_commit (p : Profile) : Settles (·.1.isOk = true) (commit p) := by
  rw [commit]
  split
  · trivial
  · refine settles_bind (rests_wrap _ _).settles fun events => ?_
    refine (settles_append _ _ events).bind (fun given => ?_) fun given hgiven => ?_
    · cases given with
      | error error => trivial
      | ok committed => exact settles_note _ trivial
    · cases given with
      | error error => contradiction
      | ok committed => exact rests_note _ rfl

theorem settles_load (id : AggregateId) : Settles (fun _ => False) (load id) := by
  refine settles_bind (fun _ => ⟨False.elim, fun _ => trivial⟩) fun given => ?_
  cases given <;> trivial

theorem settles_attempt (id : AggregateId) (command : ProfileCommand) :
    Settles (·.isOk = true) (attempt id command) := by
  refine settles_bind ?_ fun start => ?_
  · split
    · trivial
    · exact settles_load id
  · cases start with
    | error error => trivial
    | ok profile =>
      simp only
      obtain ⟨_ | _, after⟩ := profile.handle command
      · trivial
      · exact (settles_commit after).bind (fun _ => trivial) fun _ hcommitted => hcommitted

/-- Only a cycle that has not landed its batch is followed by another. -/
theorem settles_cycles (retry : RetryPolicy) (id : AggregateId) (command : ProfileCommand)
    (more number : Nat) : Settles (fun _ => True) (cycles retry id command more number) := by
  induction more using Nat.strongRecOn generalizing number with
  | _ more ih =>
    rw [cycles]
    refine (settles_attempt id command).bind (fun result => ?_) fun result hlanded => ?_
    · rcases result with error | committed
      · cases error with
        | concurrency reason =>
          simp only
          split
          · trivial
          · cases more with
            | zero => exact settles_note _ trivial
            | succ fewer =>
              cases retry.delayAfter number with
              | none => trivial
              | some delay => exact settles_note _ (ih fewer (Nat.lt_succ_self fewer) _)
        | _ => trivial
      · exact settles_note _ trivial
    · rcases result with error | committed
      · contradiction
      · exact rests_note _ trivial

/-- Once a batch has landed, the handler makes no further request of the store. -/
theorem settles_handle (retry : RetryPolicy) (command : ProfileCommand) :
    Settles (fun _ => True) (handle retry command) := by
  have hallocate : Settles (fun _ => False) (allocate command) := by
    rw [allocate]
    cases command.target.aggregateId with
    | some id => trivial
    | none => exact fun _ => ⟨False.elim, fun _ => trivial⟩
  refine settles_bind hallocate fun id => ?_
  refine (settles_cycles retry id command _ 1).bind (fun result => ?_) fun result _ => ?_
  · cases result with
    | ok outcome => trivial
    | error error => exact settles_note _ trivial
  · cases result with
    | ok outcome => trivial
    | error error => exact rests_note _ trivial

end Settling

end HandlerPlan

end IdentityLedger
