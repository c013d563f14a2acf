import IdentityLedger.Proofs.Projection.CatchUp

/-!
# The read model of an engine

A synchronous engine in memory keeps its rows in step with the log: after every command,
whether it is accepted or rejected, and whatever siblings it makes step down, there is
one row for each profile that its stream loads to and that is not retired.
-/
namespace IdentityLedger

namespace Memory

def cursor (m : Memory) (id : AggregateId) : Nat :=
  (m.cursors.get? profileProjectionName id).getD 0

/-- The log is left alone. -/
def SameEvents (a b : Memory) : Prop := b.events = a.events

theorem sameEvents_frame : Frame SameEvents :=
  ⟨fun _ => rfl, fun hab hbc => hbc.trans hab, fun _ _ => rfl⟩

/-- The read model in a memory never fails. -/
def rowModel : RowModel Memory where
  rows := RowTable.store rowCell
  cursors := CursorTable.store cursorCell
  cursor := cursor
  table := Memory.rows
  later := SameEvents
  steady _ := True
  serves := {
    get := fun _ _ => ⟨rfl, rfl, rfl, rfl⟩
    upsert := fun _ _ _ => ⟨rfl, rfl, rfl⟩
    remove := fun _ _ => ⟨rfl, rfl, rfl⟩
    clear := fun _ => ⟨rfl, rfl, rfl⟩ }
  tracks := Observation.tracks_of_cell _ cursorCell (fun _ _ => rfl) sameEvents_frame (fun _ _ => rfl)
    (fun _ _ => rfl) (fun _ _ => rfl) (fun _ _ => rfl) (fun _ _ _ => rfl) (fun _ => rfl)
  reliable := {
    later := fun _ _ => trivial
    get := fun _ _ _ herror => nomatch herror
    upsert := fun _ _ _ _ herror => nomatch herror
    remove := fun _ _ _ herror => nomatch herror }

theorem Quiet.still {a b : Memory} (h : Quiet a b) : rowModel.observation.Still a b where
  cursor := by
    funext id
    change cursor b id = cursor a id
    rw [cursor, cursor, h.cursors]
  model := h.rows
  later := h.events

end Memory

namespace Engine

/-- An engine in memory that brings its rows up to date before a command returns. -/
def synchronous (retry : RetryPolicy) : Engine Memory :=
  ⟨⟨EventLog.store Memory.eventCell, retry⟩, RowTable.store Memory.rowCell, .synchronous⟩

/-- A registry that has brought the rows to the end of the log, without a failure. -/
structure Current (reg : Registry Memory) (m : Memory) : Prop where
  lawful : m.events.Lawful
  tracked : Memory.rowModel.Tracked m.events reg m
  atEnd : Memory.rowModel.AtEnd m.events m
  failures : reg.outbox.failed = []

variable {reg : Registry Memory} {m m' : Memory}

theorem Current.of_events {log : EventLog} (hevents : m.events = log) (hlog : log.Lawful)
    (htracked : Memory.rowModel.Tracked log reg m) (hend : Memory.rowModel.AtEnd log m)
    (hfailures : reg.outbox.failed = []) : Current reg m := by
  subst hevents
  exact ⟨hlog, htracked, hend, hfailures⟩

theorem Current.still (h : Current reg m) (hstill : Memory.rowModel.observation.Still m m') :
    Current reg m' :=
  .of_events hstill.later h.lawful (h.tracked.still hstill) (h.atEnd.still hstill) h.failures

theorem Current.report (h : Current reg m) (level : Level) (message : String)
    (fields : List (String × FieldValue)) :
    Current reg (Journal.report level message fields m).2 := by
  have hstill := Memory.rowModel.tracks.still
  exact h.still (hstill.report (hstill.refl m) level message fields)

theorem Current.commit (h : Current reg m) {id : AggregateId} {command : ProfileCommand}
    {committed : List StoredEvent} (hcarries : CarriesOut m.events id command committed)
    (hquiet : Memory.Quiet { m with events := m.events.extend id committed } m') :
    let after := reg.dispatchAll (committed.map StoredEvent.envelope) m'
    Current after.1 after.2 ∧ after.2.events = m.events.extend id committed := by
  have hlawful := h.lawful.extend hcarries
  have hcursor : Memory.rowModel.cursor m' = Memory.rowModel.cursor m := hquiet.still.cursor
  have htracked := (h.tracked.extend h.lawful hcarries).congr hcursor hquiet.rows
  have hcommits := EventLog.commits_extend m.events id committed
  have hfirst : ∀ id, EventLog.lengths m.events.commits id ≤ Memory.rowModel.cursor m' id := by
    intro id
    have hreached : Memory.rowModel.cursor m id = EventLog.lengths m.events.commits id := by
      rw [h.lawful.consistent.lengths_commits, h.atEnd]
    rw [hcursor]
    exact Nat.le_of_eq hreached.symm
  obtain ⟨hall, hend, hlater, hfailed⟩ :=
    htracked.dispatchAll_rest hlawful trivial hcommits hfirst
  have hevents := hlater.trans hquiet.events
  exact ⟨.of_events hevents hlawful hall hend (hfailed.trans h.failures), hevents⟩

/-- What becomes of the log when a command is handled alone: it stays as it is, or one
stream is extended by what the command decides. -/
inductive Settles (m : Memory) (command : ProfileCommand) :
    (Except DispatchError CommandOutcome × Registry Memory) × Memory → Prop
  | rejected (error : DispatchError) {reg : Registry Memory} {m' : Memory}
      (hevents : m'.events = m.events) : Settles m command ((.error error, reg), m')
  | accepted (id : AggregateId) (attempts : Nat) (committed : List StoredEvent)
      {reg : Registry Memory} {m' : Memory} (hcarries : CarriesOut m.events id command committed)
      (hevents : m'.events = m.events.extend id committed) :
      Settles m command ((.ok (CommandHandler.outcome id attempts committed), reg), m')

variable (retry : RetryPolicy)

/-- A command that is handled alone changes nothing, or its batch lands and the rows follow. -/
theorem Current.handleAlone_cases (h : Current reg m) (command : ProfileCommand) :
    (∃ error m', (synchronous retry).handleAlone reg command m = ((.error error, reg), m') ∧
        Memory.Quiet m m') ∨
      ∃ id attempts committed reg' m', (synchronous retry).handleAlone reg command m =
          ((.ok (CommandHandler.outcome id attempts committed), reg'), m') ∧
        CarriesOut m.events id command committed ∧ Current reg' m' ∧
        m'.events = m.events.extend id committed := by
  have hcases := Memory.handle_cases retry command h.lawful.consistent
  rw [Engine.handleAlone, CommandHandler.handleInto, bind_apply]
  change Memory.Handled m command ((synchronous retry).handler.handle command m) at hcases
  generalize (synchronous retry).handler.handle command m = step at hcases ⊢
  cases hcases with
  | rejected error hquiet => exact .inl ⟨error, _, rfl, hquiet⟩
  | accepted id attempts committed hcarries hquiet =>
    obtain ⟨hcurrent, hevents⟩ := h.commit hcarries hquiet
    exact .inr ⟨id, attempts, committed, _, _, rfl, hcarries, hcurrent, hevents⟩

theorem Current.settles (h : Current reg m) (command : ProfileCommand) :
    let after := (synchronous retry).handleAlone reg command m
    Current after.1.2 after.2 ∧ Settles m command after := by
  rcases h.handleAlone_cases retry command with
    ⟨error, m', hhandle, hquiet⟩ | ⟨id, attempts, committed, reg', m', hhandle, hcarries, hcurrent, hevents⟩
  · rw [hhandle]
    exact ⟨h.still hquiet.still, .rejected error hquiet.events⟩
  · rw [hhandle]
    exact ⟨hcurrent, .accepted id attempts committed hcarries hevents⟩

theorem Current.handleAlone (h : Current reg m) (command : ProfileCommand) :
    Current ((synchronous retry).handleAlone reg command m).1.2
      ((synchronous retry).handleAlone reg command m).2 := (h.settles retry command).1

theorem supersedeEach_cons (e : Engine Memory) (activation : Activation) (reg : Registry Memory)
    (command : ProfileCommand) (commands : List ProfileCommand) (m : Memory) :
    ∃ level message fields, e.supersedeEach activation reg (command :: commands) m =
      e.supersedeEach activation (e.handleAlone reg command m).1.2 commands
        (Journal.report level message fields (e.handleAlone reg command m).2).2 := by
  rw [supersedeEach, bind_apply]
  generalize e.handleAlone reg command m = step
  obtain ⟨⟨result, reg'⟩, m'⟩ := step
  dsimp only
  split <;> exact ⟨_, _, _, rfl⟩

theorem Current.supersedeEach (h : Current reg m) (activation : Activation)
    (commands : List ProfileCommand) :
    Current ((synchronous retry).supersedeEach activation reg commands m).1
      ((synchronous retry).supersedeEach activation reg commands m).2 := by
  induction commands generalizing reg m with
  | nil => exact h
  | cons command commands ih =>
    obtain ⟨level, message, fields, hcons⟩ :=
      supersedeEach_cons (synchronous retry) activation reg command commands m
    rw [hcons]
    exact ih ((h.handleAlone retry command).report level message fields)

theorem Current.supersedeSiblings (h : Current reg m) (activation : Activation) :
    Current ((synchronous retry).supersedeSiblings reg activation m).1
      ((synchronous retry).supersedeSiblings reg activation m).2 := by
  have hload : Repository.load (synchronous retry).handler.store activation.profileId m =
    (Repository.replayStream activation.profileId (m.events.stream activation.profileId), m) := rfl
  rw [Engine.supersedeSiblings, bind_apply, hload]
  cases Repository.replayStream activation.profileId (m.events.stream activation.profileId) with
  | error error => exact h.report _ _ _
  | ok profile =>
    dsimp only
    cases profile.userId with
    | none => exact h
    | some userId => exact h.supersedeEach retry activation _

theorem Current.supersedeAll (h : Current reg m) (activations : List Activation) :
    Current ((synchronous retry).supersedeAll reg activations m).1
      ((synchronous retry).supersedeAll reg activations m).2 := by
  induction activations generalizing reg m with
  | nil => exact h
  | cons activation activations ih => exact ih (h.supersedeSiblings retry activation)

/-- Every command leaves the rows at the end of the log. -/
theorem Current.handle (h : Current reg m) (command : ProfileCommand) :
    Current ((synchronous retry).handle reg command m).1.2
      ((synchronous retry).handle reg command m).2 := by
  have hfirst := h.handleAlone retry command
  rw [Engine.handle, bind_apply]
  generalize (synchronous retry).handleAlone reg command m = step at hfirst
  obtain ⟨⟨_ | outcome, reg'⟩, m'⟩ := step
  · exact hfirst
  · exact hfirst.supersedeAll retry _

/-- Handles commands one after another, whatever becomes of them. -/
def handleAll (e : Engine Memory) (reg : Registry Memory) :
    List ProfileCommand → StateM Memory (Registry Memory)
  | [] => pure reg
  | command :: commands => do
    let (_, reg) ← e.handle reg command
    e.handleAll reg commands

theorem Current.handleAll (h : Current reg m) (commands : List ProfileCommand) :
    Current ((synchronous retry).handleAll reg commands m).1
      ((synchronous retry).handleAll reg commands m).2 := by
  induction commands generalizing reg m with
  | nil => exact h
  | cons command commands ih => exact ih (h.handle retry command)

def profileRegistry : Registry Memory :=
  .new [.new (profileProjection (RowTable.store Memory.rowCell)) (CursorTable.store Memory.cursorCell)]

theorem Current.start (hevents : m.events = .empty) (hrows : m.rows = .empty)
    (hcursors : m.cursors = .empty) : Current profileRegistry m := by
  have hcursor : Memory.rowModel.cursor m = fun _ => 0 := by
    funext id
    change Memory.cursor m id = 0
    rw [Memory.cursor, hcursors]
    rfl
  refine .of_events hevents .empty (RowModel.Tracked.start hcursor hrows .new) ?_ rfl
  intro id
  rw [hcursor]
  rfl

/-- The rows that an engine shows are those of the profiles that load and are not retired. -/
structure Mirrors (e : Engine Memory) (reg : Registry Memory) (m : Memory) : Prop where
  absent : ∀ id, m.events.stream id = [] → e.profile id m = (.ok none, m)
  present : ∀ id, m.events.stream id ≠ [] →
    ∃ p, Repository.load e.handler.store id m = (.ok p, m) ∧ p.id = id ∧
      if p.retired then e.profile id m = (.ok none, m)
      else ∃ row, e.profile id m = (.ok (some row), m) ∧ row.Agrees p
  listed : ∃ rows, e.profiles m = (.ok rows, m) ∧
    rows.Pairwise (fun a b => a.profileId < b.profileId) ∧
      ∀ row, row ∈ rows ↔ e.profile row.profileId m = (.ok (some row), m)
  failures : reg.failures = []
  parked : ∀ r ∈ reg.runners, r.parkedCount = 0

theorem Current.get?_rows (h : Current reg m) (id : AggregateId) :
    m.rows.get? id = (Profile.load id (m.events.history id)).row? := by
  obtain ⟨r, _, hfollows⟩ := h.tracked.runners
  have hrow := hfollows.shows.row id
  rw [h.atEnd, EventLog.rowAt, ← h.lawful.length_history, List.take_length] at hrow
  exact hrow

theorem Current.profile_eq (h : Current reg m) (id : AggregateId) :
    (synchronous retry).profile id m =
      (.ok (Profile.load id (m.events.history id)).row?, m) := by
  rw [← h.get?_rows]
  rfl

theorem Current.mirrors (h : Current reg m) : (synchronous retry).Mirrors reg m where
  absent id hstream := by
    rw [h.profile_eq, EventLog.history, hstream]
    rfl
  present id hstream := by
    refine ⟨.load id (m.events.history id), ?_, (h.lawful.fits id).id_replay, ?_⟩
    · rw [← h.lawful.replayStream_eq hstream]
      rfl
    rw [h.profile_eq]
    by_cases hretired : (Profile.load id (m.events.history id)).retired = true
    · rw [if_pos hretired, Profile.row?, if_pos hretired]
    · rw [if_neg hretired]
      rw [Bool.not_eq_true] at hretired
      have huser := Profile.isSome_userId_replay (p := .blank id) rfl (m.events.history id)
      have hcreated := h.lawful.isCreated hstream
      obtain ⟨row, hrow⟩ := Option.isSome_iff_exists.mp (Profile.isSome_row? huser hcreated hretired)
      exact ⟨row, congrArg (fun row => (Except.ok row, m)) hrow, Profile.agrees_of_row? hrow⟩
  listed := by
    obtain ⟨r, _, hfollows⟩ := h.tracked.runners
    obtain ⟨hordered, hmem⟩ := hfollows.shows.values h.lawful
    refine ⟨m.rows.values, rfl, hordered, fun row => (hmem row).trans ?_⟩
    change _ ↔ (Except.ok (m.rows.get? row.profileId), m) = (Except.ok (some row), m)
    simp only [Prod.mk.injEq, Except.ok.injEq, and_true]
    rfl
  failures := h.failures
  parked := h.tracked.parked_atEnd h.lawful h.atEnd

/-- A synchronous engine in memory is assembled unless its configuration is refused, and
after any commands, accepted or rejected, its rows mirror the profiles. -/
theorem handleAll_mirrors (config : EngineConfig) (ids : Nat → Uuid)
    (commands : List ProfileCommand) :
    let assembled := inMemory { config with dispatch := .synchronous } { Memory.empty with ids }
    let engine := synchronous config.retry
    let after := engine.handleAll profileRegistry commands assembled.2
    (assembled.1 = match config.error? with
      | some error => .error error
      | none => .ok (engine, profileRegistry)) ∧ engine.Mirrors after.1 after.2 := by
  intro assembled engine after
  have hassembled : (assembled.1 = match config.error? with
      | some error => .error error
      | none => .ok (engine, profileRegistry)) ∧ Current profileRegistry assembled.2 := by
    have herror : { config with dispatch := .synchronous }.error? = config.error? := rfl
    simp only [assembled, inMemory, assemble, herror]
    cases config.error? with
    | some error => exact ⟨rfl, .start rfl rfl rfl⟩
    | none => exact ⟨rfl, .start rfl rfl rfl⟩
  exact ⟨hassembled.1, (hassembled.2.handleAll config.retry commands).mirrors config.retry⟩

end Engine

end IdentityLedger
