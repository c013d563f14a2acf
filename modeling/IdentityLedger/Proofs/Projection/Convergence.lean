import IdentityLedger.Proofs.Projection.CatchUp

/-!
# Convergence under failures

Rows in a store of which every operation may fail at any time, without effect. Whatever
a registry is asked to do with the envelopes of a log that commands have written, each
row stays the one that its stream describes up to the cursor; and as soon as the store
works again, one catch-up and one retry bring the rows in step with the whole log.
-/
namespace IdentityLedger

/-- Rows behind a store that fails by a schedule: the operation of a number is answered
with the failure that is given for it, if there is one. -/
structure FlakyRows where
  rows : RowTable
  calls : Nat
  faults : Nat → Option ProjectionError
  cursors : CursorTable
  journal : List JournalRecord

namespace FlakyRows

def start (faults : Nat → Option ProjectionError) : FlakyRows := ⟨.empty, 0, faults, .empty, []⟩

def healed (w : FlakyRows) : FlakyRows := { w with faults := fun _ => none }

instance : Journal FlakyRows := ⟨fun record w => { w with journal := record :: w.journal }⟩

def cursorCell : Cell FlakyRows CursorTable := ⟨FlakyRows.cursors, fun cursors w => { w with cursors }⟩

def operate {α : Type} (f : RowTable → α × RowTable) : StateM FlakyRows (Except ProjectionError α) :=
  fun w => match w.faults w.calls with
    | some error => (.error error, { w with calls := w.calls + 1 })
    | none => (.ok (f w.rows).1, { w with rows := (f w.rows).2, calls := w.calls + 1 })

def store : RowStore FlakyRows where
  get id := operate fun rows => (rows.get? id, rows)
  upsert id row := operate fun rows => ((), rows.insert id row)
  remove id := operate fun rows => ((rows.get? id).isSome, rows.erase id)
  list := operate fun rows => (rows.values, rows)
  clear := operate fun _ => ((), .empty)

/-- The number of the last event of a stream that the rows have absorbed. -/
def cursor (w : FlakyRows) (id : AggregateId) : Nat :=
  (w.cursors.get? profileProjectionName id).getD 0

def Later (a b : FlakyRows) : Prop := a.calls ≤ b.calls ∧ b.faults = a.faults

theorem later_frame : Frame Later :=
  ⟨fun _ => ⟨Nat.le_refl _, rfl⟩, fun hab hbc => ⟨Nat.le_trans hab.1 hbc.1, hbc.2.trans hab.2⟩,
    fun _ _ => ⟨Nat.le_refl _, rfl⟩⟩

/-- An operation fails without effect, or it does what it is for. -/
@[elab_as_elim]
theorem operate_elim {α : Type} {motive : Except ProjectionError α × FlakyRows → Prop}
    (f : RowTable → α × RowTable) (w : FlakyRows)
    (failed : ∀ error w', (Observation.ofRows cursor FlakyRows.rows Later).Still w w' →
      motive (.error error, w'))
    (done : ∀ w', (Observation.ofRows cursor FlakyRows.rows Later).Moves (fun rows => (f rows).2) w w' →
      motive (.ok (f w.rows).1, w')) : motive (operate f w) := by
  rw [operate]
  cases w.faults w.calls with
  | some error => exact failed error _ ⟨rfl, rfl, Nat.le_succ _, rfl⟩
  | none => exact done _ ⟨rfl, rfl, Nat.le_succ _, rfl⟩

theorem operate_ne_error {α : Type} {f : RowTable → α × RowTable} {w : FlakyRows}
    (h : ∀ call, w.calls ≤ call → w.faults call = none) (error : ProjectionError) :
    (operate f w).1 ≠ .error error := by
  rw [operate, h w.calls (Nat.le_refl _)]
  intro herror
  cases herror

/-- The read model on such rows; it is reliable once no failure is scheduled any more. -/
def model : RowModel FlakyRows where
  rows := store
  cursors := CursorTable.store cursorCell
  cursor := cursor
  table := FlakyRows.rows
  later := Later
  steady w := ∀ call, w.calls ≤ call → w.faults call = none
  serves := {
    get := fun id w => by
      dsimp only [store]
      refine operate_elim (fun rows => (rows.get? id, rows)) w ?_ ?_
      · exact fun _ _ hstill => hstill
      · exact fun _ hmoves => ⟨rfl, hmoves.cursor, hmoves.model, hmoves.later⟩
    upsert := fun id row w => by
      dsimp only [store]
      refine operate_elim (fun rows => ((), rows.insert id row)) w ?_ ?_
      · exact fun _ _ hstill => hstill
      · exact fun _ hmoves => hmoves
    remove := fun id w => by
      dsimp only [store]
      refine operate_elim (fun rows => ((rows.get? id).isSome, rows.erase id)) w ?_ ?_
      · exact fun _ _ hstill => hstill
      · exact fun _ hmoves => hmoves
    clear := fun w => by
      dsimp only [store]
      refine operate_elim (fun _ => ((), .empty)) w ?_ ?_
      · exact fun _ _ hstill => hstill
      · exact fun _ hmoves => hmoves }
  tracks := Observation.tracks_of_cell _ cursorCell (fun _ _ => rfl) later_frame (fun _ _ => rfl)
    (fun _ _ => rfl) (fun _ _ => rfl) (fun _ _ => rfl) (fun _ _ _ => ⟨Nat.le_refl _, rfl⟩)
    (fun _ => ⟨Nat.le_refl _, rfl⟩)
  reliable := {
    later := fun hsteady hlater call hcall => by
      rw [hlater.2]
      exact hsteady call (Nat.le_trans hlater.1 hcall)
    get := fun hsteady _ => operate_ne_error hsteady
    upsert := fun hsteady _ _ => operate_ne_error hsteady
    remove := fun hsteady _ => operate_ne_error hsteady }

theorem steady_healed (w : FlakyRows) : model.steady w.healed := fun _ _ => rfl

end FlakyRows

/-- What a registry can be asked to do with the events of a log. A read of the log answers
with a beginning of it, or fails. -/
inductive RegistryCall where
  | dispatch (e : Envelope Json)
  | retryFailed
  | catchUp (read : Except EventStoreError Nat)
  | rebuild (read : Except EventStoreError Nat)

/-- A copy of the first events of a log. -/
def EventLog.copy {ω : Type} (log : EventLog) (read : Except EventStoreError Nat) : EventStore ω :=
  .replica (read.map fun count => log.commits.take count)

namespace Registry
variable {ω : Type} [Journal ω]

def answer (log : EventLog) (reg : Registry ω) : RegistryCall → StateM ω (Registry ω)
  | .dispatch e => do
    let (_, reg) ← reg.dispatch e
    pure reg
  | .retryFailed => do
    let (_, reg) ← reg.retryFailed
    pure reg
  | .catchUp read => do
    let (_, reg) ← reg.catchUp (log.copy read)
    pure reg
  | .rebuild read => do
    let (_, reg) ← reg.rebuild (log.copy read)
    pure reg

def answerAll (log : EventLog) (reg : Registry ω) : List RegistryCall → StateM ω (Registry ω)
  | [] => pure reg
  | call :: calls => do
    let reg ← reg.answer log call
    reg.answerAll log calls

end Registry

namespace RowModel
variable {ω : Type} [Journal ω] {m : RowModel ω} {log : EventLog} {reg : Registry ω} {w : ω}

theorem copy_commits (read : Except EventStoreError Nat) (events : List StoredEvent)
    (hread : (read.map fun count => log.commits.take count) = .ok events) :
    ∀ stored ∈ events, stored ∈ log.commits := by
  cases read with
  | error error => cases hread
  | ok count =>
    cases hread
    exact fun _ hmem => List.mem_of_mem_take hmem

theorem Tracked.answer (hlog : log.Lawful) (h : m.Tracked log reg w) {call : RegistryCall}
    (hcall : ∀ e, call = .dispatch e → e ∈ log.envelopes) :
    m.Tracked log (reg.answer log call w).1 (reg.answer log call w).2 := by
  cases call with
  | dispatch e => exact h.dispatch hlog (hcall e rfl)
  | retryFailed => exact h.retryFailed hlog
  | catchUp read => exact h.catchUp hlog (copy_commits read)
  | rebuild read => exact h.rebuild hlog (copy_commits read)

theorem Tracked.answerAll (hlog : log.Lawful) (h : m.Tracked log reg w)
    {calls : List RegistryCall} (hcalls : ∀ e, .dispatch e ∈ calls → e ∈ log.envelopes) :
    m.Tracked log (reg.answerAll log calls w).1 (reg.answerAll log calls w).2 := by
  induction calls generalizing reg w with
  | nil => exact h
  | cons call calls ih =>
    have hcall : ∀ e, call = .dispatch e → e ∈ log.envelopes := by
      intro e he
      exact hcalls e (he ▸ List.mem_cons_self)
    exact ih (h.answer hlog hcall) fun e he => hcalls e (List.mem_cons_of_mem _ he)

end RowModel

namespace FlakyRows

/-- Each row is the one that its stream describes up to the cursor. -/
structure InStep (log : EventLog) (w : FlakyRows) : Prop where
  bound : ∀ id, w.cursor id ≤ (log.stream id).length
  row : ∀ id, w.rows.get? id = log.rowAt id (w.cursor id)

/-- Nothing is left to do: every cursor is at the end of its stream, nothing is parked or
queued, the rows are those of the whole log, and to catch up once more changes none of it
and signals nothing, whoever listens. -/
structure CaughtUp (log : EventLog) (reg : Registry FlakyRows) (w : FlakyRows) : Prop where
  cursor : ∀ id, w.cursor id = (log.stream id).length
  parked : ∀ r ∈ reg.runners, r.parkedCount = 0
  failures : reg.failures = []
  rows : w.rows = .ofCommits log.commits
  again : ∀ bus, let reg : Registry FlakyRows := ⟨reg.runners, ⟨reg.failures, bus⟩⟩
    let after := reg.catchUp (.replica (.ok log.commits)) w
    after.1.2 = reg ∧ after.2.rows = w.rows ∧ ∀ id, after.2.cursor id = w.cursor id

theorem inStep_of_tracked {log : EventLog} {reg : Registry FlakyRows} {w : FlakyRows}
    (h : model.Tracked log reg w) : w.InStep log := by
  obtain ⟨r, _, hfollows⟩ := h.runners
  exact ⟨hfollows.shows.bound, hfollows.shows.row⟩

theorem caughtUp_of_atEnd {log : EventLog} (hlog : log.Lawful) {reg : Registry FlakyRows}
    {w : FlakyRows} (h : model.Tracked log reg w) (hend : model.AtEnd log w)
    (hfailures : reg.failures = []) : CaughtUp log reg w where
  cursor := hend
  parked := h.parked_atEnd hlog hend
  failures := hfailures
  rows := by
    obtain ⟨r, _, hfollows⟩ := h.runners
    exact hfollows.shows.eq_ofCommits hlog hend
  again := by
    intro bus
    have hagain : model.Tracked log ⟨reg.runners, ⟨reg.failures, bus⟩⟩ w := ⟨h.runners, h.queue⟩
    obtain ⟨hreg, hstill⟩ := hagain.catchUp_atEnd hlog hend
    exact ⟨hreg, hstill.model, congrFun hstill.cursor⟩

end FlakyRows

/-- However a registry is asked to follow a log that commands have written, and however its
row store fails meanwhile, each row stays in step with its stream. Once the store works
again, one catch-up and one retry leave nothing to do. -/
theorem answerAll_converges (log : EventLog) (hlog : log.Written)
    (faults : Nat → Option ProjectionError) (bus : Bus ProjectionUpdated)
    (calls : List RegistryCall) (hcalls : ∀ e, .dispatch e ∈ calls → e ∈ log.envelopes) :
    let after := Registry.answerAll log ⟨[FlakyRows.model.runner], ⟨[], bus⟩⟩ calls (.start faults)
    let caught := after.1.catchUp (.replica (.ok log.commits)) after.2.healed
    let retried := caught.1.2.retryFailed caught.2
    after.2.InStep log ∧ FlakyRows.CaughtUp log retried.1.2 retried.2 := by
  intro after caught retried
  have hlawful := hlog.lawful
  have hafter : FlakyRows.model.Tracked log after.1 after.2 :=
    (RowModel.Tracked.start rfl rfl bus).answerAll hlawful hcalls
  have hhealed : FlakyRows.model.Tracked log after.1 after.2.healed := hafter.congr rfl rfl
  have hread : ∀ events, Except.ok log.commits = (.ok events : Except EventStoreError _) →
      ∀ stored ∈ events, stored ∈ log.commits := by
    rintro events ⟨⟩ stored hmem
    exact hmem
  have hcaught := hhealed.catchUp hlawful hread
  have hend := hhealed.catchUp_steady hlawful (FlakyRows.steady_healed after.2)
  have hretried := hcaught.retryFailed hlawful
  obtain ⟨hreg, hstill⟩ := hcaught.retryFailed_atEnd hlawful hend
  refine ⟨FlakyRows.inStep_of_tracked hafter, ?_⟩
  refine FlakyRows.caughtUp_of_atEnd hlawful hretried (hend.still hstill) ?_
  change (caught.1.2.retryFailed caught.2).1.2.failures = []
  rw [hreg]
  rfl

/-- The second event comes first, and the first one fails once. -/
theorem answerAll_converges_mintedLog :
    let calls := mintedLog.envelopes.reverse.map .dispatch ++ [.rebuild (.ok 1), .retryFailed]
    let faults (call : Nat) := if call = 0 then some (.store "unavailable") else none
    mintedLog.commits.length = 2 ∧ mintedLog.Written ∧
      (∀ e, .dispatch e ∈ calls → e ∈ mintedLog.envelopes) ∧
      let after := Registry.answerAll mintedLog ⟨[FlakyRows.model.runner], ⟨[], .new⟩⟩ calls
        (.start faults)
      let caught := after.1.catchUp (.replica (.ok mintedLog.commits)) after.2.healed
      let retried := caught.1.2.retryFailed caught.2
      after.2.InStep mintedLog ∧ FlakyRows.CaughtUp mintedLog retried.1.2 retried.2 := by
  intro calls faults
  have hlog := mintedLog_written
  have hcalls : ∀ e, .dispatch e ∈ calls → e ∈ mintedLog.envelopes := by
    intro e he
    simpa [calls] using he
  exact ⟨by decide +kernel, hlog, hcalls, answerAll_converges mintedLog hlog faults .new calls hcalls⟩

end IdentityLedger
