import IdentityLedger.Proofs.CommandHandler.Plan
import IdentityLedger.Proofs.CommandHandler.Uncontended

/-!
# What guides a handler

A handler that waits between its requests finds the log grown each time, by whatever others
have landed. It is guided by its command all the same: it lands one batch at most, which
carries out the command on the stream that it lands on, and if it lands none it has been
refused on the log of its last load, or it has lost every race.
-/
namespace IdentityLedger

namespace EventLog
variable {log log' log'' : EventLog} {id : AggregateId} {command : ProfileCommand}

/-- A lawful log that begins with all of another. -/
structure Grows (log after : EventLog) : Prop where
  lawful : after.Lawful
  commits : log.commits <+: after.commits

theorem Grows.refl (h : log.Lawful) : log.Grows log := ⟨h, List.prefix_rfl⟩

theorem Grows.trans (h : log.Grows log') (h' : log'.Grows log'') : log.Grows log'' :=
  ⟨h'.lawful, h.commits.trans h'.commits⟩

theorem Grows.extend (h : log.Lawful) {committed : List StoredEvent}
    (hcarries : CarriesOut log id command committed) : log.Grows (log.extend id committed) :=
  ⟨h.extend hcarries, List.prefix_append _ _⟩

theorem Grows.stream (h : log.Grows log') (hlog : log.Consistent) (id : AggregateId) :
    log.stream id <+: log'.stream id := by
  rw [hlog.stream_eq, h.lawful.consistent.stream_eq]
  exact h.commits.filter _

theorem Lawful.append_exact (h : log.Lawful) {events : List ProfileEvent} {batch : List NewEvent}
    (hwraps : List.Forall₂ (Repository.Wraps id) events batch) (hevents : events ≠ [])
    (version : Nat) :
    (version = (log.stream id).length ∧ log.append id (.exact version) batch =
        (.ok (number (version + 1) batch), log.extend id (number (version + 1) batch))) ∨
      ∃ reason, log.append id (.exact version) batch = (.error (.concurrency reason), log) :=
  (h.consistent.append_exact hwraps hevents version fun _ => h.aggregateType_eq id).imp_right And.right

/-- The log has no profile that could carry out the command. -/
inductive Refuses (log : EventLog) : ProfileCommand → Prop
  | missing (id : AggregateId) (action : ProfileAction) (time : Timestamp)
      (hstream : log.stream id = []) : Refuses log (.act id action time)
  | rejected (id : AggregateId) (action : ProfileAction) (time : Timestamp) (rejection : Rejection)
      (hdecide : (Profile.load id (log.history id)).decide (.act id action time) = .error rejection) :
      Refuses log (.act id action time)

end EventLog

/-- How far a handler has come with its command. -/
inductive Stage
  | waiting
  | refused
  | landed (id : AggregateId) (committed : List StoredEvent)

namespace Stage
variable (log : EventLog) (command : ProfileCommand)

inductive Loads : Stage → Stage → Prop
  | stays (stage : Stage) : Loads stage stage
  | refused (hrefuses : log.Refuses command) : Loads waiting refused

/-- How an attempt for an aggregate ends. -/
inductive Attempted (id : AggregateId) : Stage → Except DispatchError (List StoredEvent) → Prop
  | landed (committed : List StoredEvent) : Attempted id (landed id committed) (.ok committed)
  | lost (reason : String) : Attempted id waiting (.error (.concurrency reason))
  | refused (error : DispatchError) (hrace : ∀ reason, error ≠ .concurrency reason) :
      Attempted id refused (.error error)
  | notCreated (error : DispatchError) (hcreation : command.target.isCreation = true) :
      Attempted id waiting (.error error)

end Stage

def DispatchError.isLostRace : DispatchError → Bool
  | conflict _ _ | delayTooLong _ => true
  | _ => false

/-- How handling a command ends. -/
inductive Stage.Ends (command : ProfileCommand) : Stage → Except DispatchError CommandOutcome → Prop
  | landed (id : AggregateId) (attempts : Nat) (committed : List StoredEvent) :
      Ends command (landed id committed) (.ok (CommandHandler.outcome id attempts committed))
  | lost (error : DispatchError) (hlost : error.isLostRace = true) : Ends command waiting (.error error)
  | refused (error : DispatchError) : Ends command refused (.error error)
  | notCreated (error : DispatchError) (hcreation : command.target.isCreation = true) :
      Ends command waiting (.error error)

namespace HandlerPlan
variable {α β : Type} (command : ProfileCommand)

/-- A plan that is guided by a command from a stage on, on a log that is at least as long as
the one it knows of: its requests meet longer logs, each append that lands carries out the
command and is the only one, and `post` holds in the end. -/
def Guided (post : Stage → α → Prop) : EventLog → Stage → HandlerPlan α → Prop
  | _, stage, .done result => post stage result
  | log, stage, .ask .fresh next => ∀ given, Guided post log stage (next given)
  | log, stage, .ask (.note _) next => ∀ given, Guided post log stage (next given)
  | log, stage, .ask (.load id) next => ∀ after, log.Grows after →
      ∃ stage', stage.Loads after command stage' ∧
        Guided post after stage' (next (.ok (after.stream id)))
  | log, stage, .ask (.append id expected events) next => ∀ after, log.Grows after →
      stage = .waiting ∧
        match (after.append id expected events).1 with
        | .error error => Guided post after .waiting (next (.error error))
        | .ok committed => CarriesOut after id command committed ∧
            (after.append id expected events).2 = after.extend id committed ∧
            Guided post (after.extend id committed) (.landed id committed) (next (.ok committed))

variable {command} {log : EventLog} {stage : Stage} {post : Stage → α → Prop}
variable {post' : Stage → β → Prop}

theorem Guided.grows {plan : HandlerPlan α} (h : plan.Guided command post log stage)
    {log' : EventLog} (hgrows : log.Grows log') : plan.Guided command post log' stage := by
  induction plan with
  | done result => exact h
  | ask request next ih =>
    cases request with
    | fresh | note => exact fun given => ih given (h given)
    | load | append => exact fun after hafter => h after (hgrows.trans hafter)

theorem Guided.bind {plan : HandlerPlan α} {f : α → HandlerPlan β}
    (h : plan.Guided command post log stage) (hlog : log.Lawful)
    (hf : ∀ after stage a, log.Grows after → post stage a →
      (f a).Guided command post' after stage) :
    (plan >>= f).Guided command post' log stage := by
  induction plan generalizing log stage with
  | done result => exact hf log stage result (.refl hlog) h
  | ask request next ih =>
    cases request with
    | fresh | note => exact fun given => ih given (h given) hlog hf
    | load id =>
      intro after hafter
      obtain ⟨stage', hloads, hnext⟩ := h after hafter
      refine ⟨stage', hloads, ih _ hnext hafter.lawful fun last stage a hlast => ?_⟩
      exact hf last stage a (hafter.trans hlast)
    | append id expected events =>
      intro after hafter
      obtain ⟨hstage, hnext⟩ := h after hafter
      refine ⟨hstage, ?_⟩
      cases happend : (after.append id expected events).1 with
      | error error =>
        simp only [happend] at hnext ⊢
        exact ih _ hnext hafter.lawful fun last stage a hlast => hf last stage a (hafter.trans hlast)
      | ok committed =>
        simp only [happend] at hnext ⊢
        obtain ⟨hcarries, hlands, hnext⟩ := hnext
        have hextend := EventLog.Grows.extend hafter.lawful hcarries
        refine ⟨hcarries, hlands, ih _ hnext hextend.lawful fun last stage a hlast => ?_⟩
        exact hf last stage a (hafter.trans (hextend.trans hlast))

theorem guided_wrap (hlog : log.Lawful) (id : AggregateId) (events : List ProfileEvent) :
    (wrap id events).Guided command
      (fun stage' batch => stage' = stage ∧ List.Forall₂ (Repository.Wraps id) events batch) log
      stage := by
  induction events generalizing log with
  | nil => exact ⟨rfl, .nil⟩
  | cons event events ih =>
    intro eventId
    refine (ih hlog).bind hlog fun _ stage' rest _ hrest => ?_
    exact ⟨hrest.1, .cons ⟨eventId, rfl⟩ hrest.2⟩

/-- Committing what was decided on the beginning of a stream lands only while that is all of
the stream. -/
theorem guided_commit (hlog : log.Lawful) {id : AggregateId} {p : Profile}
    {beginning : List StoredEvent} {events : List ProfileEvent} (hstart : beginning <+: log.stream id)
    (hreplayed : Repository.applyStored (.blank id) beginning = .ok p) (hid : p.id = id)
    (hdecided : p.decide command = .ok events) (hfits : p.Fits events) (hevents : events ≠ []) :
    (commit (events.foldl Profile.record p)).Guided command
      (fun stage result => stage.Attempted command id result.1) log .waiting := by
  obtain ⟨hversion, hbuffer⟩ := Profile.committedVersion_foldl_record
    (Repository.uncommitted_of_applyStored hreplayed) events
  have hid' : (events.foldl Profile.record p).id = id := by
    rw [Profile.foldl_record]
    exact hfits.id_replay.trans hid
  rw [Repository.version_of_applyStored hreplayed] at hversion
  generalize events.foldl Profile.record p = q at hversion hbuffer hid'
  have hsome : q.uncommitted.isEmpty = false := by
    rw [Uncommitted.isEmpty, hbuffer]
    simpa using hevents
  rw [commit, if_neg (by simp [hsome]), hid', hbuffer, hversion]
  refine (guided_wrap hlog id events).bind hlog fun wrapped stage batch hwrapped hbatch => ?_
  obtain ⟨rfl, hwraps⟩ := hbatch
  intro after hafter
  refine ⟨rfl, ?_⟩
  rcases hafter.lawful.append_exact hwraps hevents beginning.length with
    ⟨hlength, happend⟩ | ⟨reason, happend⟩
  · have hstream : beginning = after.stream id :=
      (hstart.trans ((hwrapped.trans hafter).stream hlog.consistent id)).eq_of_length hlength
    have hcarries : CarriesOut after id command (EventLog.number (beginning.length + 1) batch) := by
      rw [hlength]
      exact .intro p events batch (hstream ▸ hreplayed) hdecided hfits hevents hwraps
    rw [happend]
    exact ⟨hcarries, rfl, fun _ => .landed _⟩
  · rw [happend]
    exact .lost reason

def decision (id : AggregateId) (command : ProfileCommand) (p : Profile) :
    HandlerPlan (Except DispatchError (List StoredEvent)) :=
  match p.handle command with
  | (.error error, _) => pure (.error (.ofDomain id error))
  | (.ok (), p) => do
    let (result, _) ← commit p
    pure result

theorem ofDomain_ne_concurrency (id : AggregateId) (error : DomainError) (reason : String) :
    DispatchError.ofDomain id error ≠ .concurrency reason := by
  cases error <;> exact nofun

theorem guided_decision (hlog : log.Lawful) {id : AggregateId} {p : Profile}
    {beginning : List StoredEvent} (hstart : beginning <+: log.stream id)
    (hreplayed : Repository.applyStored (.blank id) beginning = .ok p) (hid : p.id = id)
    (hnew : command.target.isCreation = true → p.retired = false)
    (hrejected : ∀ rejection, p.decide command = .error rejection →
      stage.Attempted command id (.error (.ofDomain id rejection.error)))
    (haccepted : ∀ events, p.decide command = .ok events → stage = .waiting) :
    (decision id command p).Guided command (fun stage result => stage.Attempted command id result) log
      stage := by
  rw [decision, Profile.handle]
  cases hdecided : p.decide command with
  | error rejection => exact hrejected rejection hdecided
  | ok events =>
    obtain rfl := haccepted events hdecided
    obtain ⟨hfits, hevents⟩ := Profile.fits_decide hnew hdecided
    refine (guided_commit hlog hstart hreplayed hid hdecided hfits hevents).bind hlog ?_
    exact fun _ _ _ _ hresult => hresult

def resume (id : AggregateId) (command : ProfileCommand) :
    Except DispatchError Profile → HandlerPlan (Except DispatchError (List StoredEvent))
  | .error error => pure (.error error)
  | .ok p => decision id command p

/-- One attempt: a creation decides on a blank profile, another command on the loaded one. -/
theorem guided_attempt (hlog : log.Lawful) {id : AggregateId}
    (htarget : ∀ target, command.target.aggregateId = some target → target = id) :
    (attempt id command).Guided command (fun stage result => stage.Attempted command id result) log
      .waiting := by
  cases command with
  | add profileId userId time =>
    exact guided_decision hlog List.nil_prefix rfl rfl (fun _ => rfl)
      (fun _ _ => .notCreated _ rfl) fun _ _ => rfl
  | act profileId action time =>
    obtain rfl : profileId = id := htarget profileId rfl
    intro after hafter
    change ∃ stage, Stage.Loads after _ .waiting stage ∧ HandlerPlan.Guided _ _ after stage
      (resume profileId (.act profileId action time)
        (Repository.replayStream profileId (after.stream profileId)))
    by_cases hstream : after.stream profileId = []
    · refine ⟨.refused, .refused (.missing profileId action time hstream), ?_⟩
      rw [hstream]
      exact .refused _ nofun
    have hexisting : (ProfileCommand.act profileId action time).target.isCreation ≠ true := nofun
    have hreplayed := hafter.lawful.applyStored_eq profileId
    have hid := (hafter.lawful.fits profileId).id_replay
    rw [hafter.lawful.replayStream_eq hstream]
    cases hdecided : (Profile.load profileId (after.history profileId)).decide
        (.act profileId action time) with
    | error rejection =>
      refine ⟨.refused, .refused (.rejected profileId action time rejection hdecided), ?_⟩
      refine guided_decision hafter.lawful List.prefix_rfl hreplayed hid (absurd · hexisting)
        (fun _ _ => .refused _ (ofDomain_ne_concurrency _ _)) ?_
      rw [hdecided]
      exact nofun
    | ok events =>
      refine ⟨.waiting, .stays _, ?_⟩
      refine guided_decision hafter.lawful List.prefix_rfl hreplayed hid (absurd · hexisting) ?_
        fun _ _ => rfl
      rw [hdecided]
      exact nofun

theorem guided_cycles (retry : RetryPolicy) (hlog : log.Lawful) {id : AggregateId}
    (htarget : ∀ target, command.target.aggregateId = some target → target = id)
    (more number : Nat) :
    (cycles retry id command more number).Guided command (fun stage result => stage.Ends command result)
      log .waiting := by
  induction more using Nat.strongRecOn generalizing log number with
  | _ more ih =>
    rw [cycles]
    refine (guided_attempt hlog htarget).bind hlog fun after stage result hafter hresult => ?_
    cases hresult with
    | landed committed => exact fun _ => .landed id number committed
    | refused error hrace =>
      cases error with
      | concurrency reason => exact absurd rfl (hrace reason)
      | _ => exact Stage.Ends.refused _
    | notCreated error hcreation =>
      cases error with
      | concurrency reason =>
        simp only [hcreation]
        exact Stage.Ends.notCreated _ hcreation
      | _ => exact Stage.Ends.notCreated _ hcreation
    | lost reason =>
      simp only
      split
      · rename_i hcreation
        exact .notCreated _ hcreation
      cases more with
      | zero => exact fun _ => .lost _ rfl
      | succ fewer =>
        cases retry.delayAfter number with
        | none => exact Stage.Ends.lost _ rfl
        | some delay => exact fun _ => ih fewer (Nat.lt_succ_self fewer) hafter.lawful (number + 1)

/-- Whatever others land meanwhile, handling a command is guided by it. -/
theorem guided_handle (retry : RetryPolicy) (command : ProfileCommand) (hlog : log.Lawful) :
    (handle retry command).Guided command (fun stage result => stage.Ends command result) log
      .waiting := by
  have hallocate : (allocate command).Guided command (fun stage id => stage = .waiting ∧
      ∀ target, command.target.aggregateId = some target → target = id) log .waiting := by
    rw [allocate]
    cases command.target.aggregateId with
    | some id => exact ⟨rfl, fun _ htarget => (Option.some.inj htarget).symm⟩
    | none => exact fun _ => ⟨rfl, fun target htarget => absurd htarget.symm (Option.some_ne_none target)⟩
  refine hallocate.bind hlog fun allocated stage id hallocated hid => ?_
  obtain ⟨rfl, htarget⟩ := hid
  refine (guided_cycles retry hallocated.lawful htarget _ 1).bind hallocated.lawful ?_
  intro after stage result _ hends
  cases hends with
  | landed id attempts committed => exact .landed id attempts committed
  | lost error hlost => exact fun _ => .lost error hlost
  | refused error => exact fun _ => .refused error
  | notCreated error hcreation => exact fun _ => .notCreated error hcreation

end HandlerPlan

end IdentityLedger
