import IdentityLedger.Proofs.Projection.Convergence
import IdentityLedger.Proofs.ReadModel.Repeats
import Mathlib.Order.Nat

/-!
# Cursors that get lost

Rows beside a cursor store of which every read and every write may fail: a failed read
shows no cursor, a failed write is dropped. What is applied once more for that is either
the last event that a row has seen, which changes nothing, or the first event of a
stream, which starts the row anew. A row is then at its stored cursor or one event ahead
of it, and once the store works again one catch-up brings all rows in step with the log.

This needs the write that follows a restart. If a failed read has a profile created anew
and the write of its cursor is dropped as well, the stored cursor stays ahead of the row,
and no catch-up returns to the events in between.
-/
namespace IdentityLedger

/-- A write of a cursor that was dropped: what was stored, and what was to replace it. -/
structure LostWrite where
  stored : Nat
  number : Nat

/-- Rows in memory beside a cursor store that fails by a schedule, and the writes that it has
dropped. -/
structure FlakyCursors where
  rows : RowTable
  cursors : CursorTable
  calls : Nat
  faults : Nat → Bool
  lost : List LostWrite
  journal : List JournalRecord

namespace FlakyCursors
variable {log : EventLog} {w : FlakyCursors}

def start (faults : Nat → Bool) : FlakyCursors := ⟨.empty, .empty, 0, faults, [], []⟩

def healed (w : FlakyCursors) : FlakyCursors := { w with faults := fun _ => false }

instance : Journal FlakyCursors := ⟨fun record w => { w with journal := record :: w.journal }⟩

def rowCell : Cell FlakyCursors RowTable := ⟨FlakyCursors.rows, fun rows w => { w with rows }⟩

/-- The cursor that is stored for a stream; 0 if there is none. -/
def cursor (w : FlakyCursors) (id : AggregateId) : Nat :=
  (w.cursors.get? profileProjectionName id).getD 0

def called (w : FlakyCursors) : FlakyCursors := { w with calls := w.calls + 1 }

def fails (w : FlakyCursors) : Bool := w.faults w.calls

def store : CursorStore FlakyCursors where
  get name id w := (if w.fails then none else w.cursors.get? name id, w.called)
  update name id number w :=
    ((), if w.fails then
        { w.called with lost := ⟨(w.cursors.get? name id).getD 0, number⟩ :: w.lost }
      else { w.called with cursors := w.cursors.update name id number })
  clear name w := ((), if w.fails then w.called else { w.called with cursors := w.cursors.clear name })

/-- A runner of the profile projection over such a store, with nothing parked. -/
def runner : Runner FlakyCursors := .new (profileProjection (RowTable.store rowCell)) store

/-- No write was dropped that would have taken a cursor back. -/
def Harmless (w : FlakyCursors) : Prop := ∀ write ∈ w.lost, write.stored ≤ write.number

instance (w : FlakyCursors) : Decidable w.Harmless :=
  inferInstanceAs (Decidable (∀ write ∈ w.lost, write.stored ≤ write.number))

/-- The rows are those that the streams describe up to the stored cursors, or one event
further. -/
def Sound (log : EventLog) (w : FlakyCursors) : Prop :=
  ∃ place, log.Shows place w.rows ∧ ∀ id, w.cursor id ≤ place id ∧ place id ≤ w.cursor id + 1

theorem Sound.start (log : EventLog) (faults : Nat → Bool) : Sound log (.start faults) :=
  ⟨fun _ => 0, .start log, fun _ => ⟨Nat.le_refl _, Nat.zero_le _⟩⟩

theorem Sound.congr {a b : FlakyCursors} (h : Sound log a) (hrows : b.rows = a.rows)
    (hcursor : b.cursor = a.cursor) : Sound log b := by
  rw [Sound, hrows, hcursor]
  exact h

theorem cursor_apply (id : AggregateId) (w : FlakyCursors) :
    runner.cursor id w = (if w.fails then 0 else w.cursor id, w.called) := by
  change ((if w.fails then none else w.cursors.get? profileProjectionName id).getD 0, w.called) = _
  cases w.fails <;> rfl

theorem update_cases (id : AggregateId) (number : Nat) (w : FlakyCursors) :
    let after := (store.update profileProjectionName id number w).2
    after.rows = w.rows ∧ after.faults = w.faults ∧
      (w.fails = false ∧ after.lost = w.lost ∧ after.cursor = Function.update w.cursor id number ∨
        w.fails = true ∧ after.lost = ⟨w.cursor id, number⟩ :: w.lost ∧ after.cursor = w.cursor) := by
  dsimp only [store]
  cases w.fails with
  | true => exact ⟨rfl, rfl, .inr ⟨rfl, rfl, rfl⟩⟩
  | false => exact ⟨rfl, rfl, .inl ⟨rfl, rfl, CursorTable.getD_update _ _ _ _⟩⟩

theorem get_apply (id : AggregateId) (w : FlakyCursors) :
    (RowTable.store rowCell).get id w = (.ok (w.rows.get? id), w) := rfl

theorem change_apply {id : AggregateId} {row : ProfileRow} (hrow : w.rows.get? id = some row)
    (f : ProfileRow → ProfileRow) : (RowTable.store rowCell).change id f w =
      (.ok (), { w with rows := w.rows.insert id (f row) }) := by
  rw [RowStore.change, bind_apply, get_apply, hrow]
  rfl

theorem project_apply {e : ProfileEvent} (hrow : e.change.isCreation = false →
    e.change ≠ .retired → (w.rows.get? e.profileId).isSome = true) :
    (RowTable.store rowCell).project e w = (.ok (), { w with rows := w.rows.absorb e }) := by
  rcases e.kinds with ⟨userId, hchange⟩ | hchange | ⟨hcreation, hretired⟩
  · rw [RowStore.project_of_created hchange, RowTable.absorb_of_created hchange]
    rfl
  · rw [RowStore.project_of_retired hchange, RowTable.absorb_of_retired hchange]
    rfl
  · obtain ⟨row, hsome⟩ := Option.isSome_iff_exists.mp (hrow hcreation hretired)
    rw [RowStore.project_of_update hcreation hretired,
      RowTable.absorb_of_update hcreation hretired hsome]
    exact change_apply hsome _

/-- An envelope from near the place of its row is taken: its event is absorbed, and its
number goes to the cursor store. -/
theorem applyNext_apply (hlog : log.Lawful) {place : AggregateId → Nat}
    (hshows : log.Shows place w.rows) {stored : StoredEvent} (hmem : stored ∈ log.commits)
    (hnear : stored.sequenceNumber = place stored.aggregateId + 1 ∨
      stored.sequenceNumber = place stored.aggregateId ∨ stored.sequenceNumber = 1) :
    ∃ rows, log.Shows (Function.update place stored.aggregateId stored.sequenceNumber) rows ∧
      (runner.applyNext stored.envelope w).2 = (store.update profileProjectionName
        stored.aggregateId stored.sequenceNumber { w with rows }).2 := by
  have hpos := (hlog.consistent.getElem?_stream hmem).1
  obtain ⟨e, hholds, _⟩ := hlog.place hmem (Nat.sub_add_cancel hpos).symm
  have hdecode : ProfileEvent.decode stored.envelope.payload = .ok e := hholds.decode_payload
  refine ⟨w.rows.absorb e, hshows.absorb_near hlog hmem hnear hdecode, ?_⟩
  have hproject := project_apply (hshows.isSome_near hlog hmem hnear hdecode)
  have hreceive : runner.projection.receive stored.envelope w =
      (.ok (), { w with rows := w.rows.absorb e }) := by
    simp only [runner, Runner.new, profileProjection, Projection.decoded, hdecode]
    exact hproject
  have hhandles : runner.projection.handles stored.envelope.eventType = true :=
    hlog.handles hmem (RowTable.store rowCell)
  rw [Runner.applyNext, bind_apply, if_pos hhandles, hreceive]
  rfl

theorem Sound.of_move {place cursor : AggregateId → Nat} {id : AggregateId} {number : Nat}
    (hplace : ∀ other, cursor other ≤ place other ∧ place other ≤ cursor other + 1)
    (hshows : log.Shows (Function.update place id number) w.rows)
    (hother : ∀ other, other ≠ id → w.cursor other = cursor other)
    (hown : w.cursor id ≤ number ∧ number ≤ w.cursor id + 1) : Sound log w := by
  refine ⟨_, hshows, fun other => ?_⟩
  by_cases hid : other = id
  · subst hid
    rw [Function.update_self]
    exact hown
  · rw [Function.update_of_ne hid, hother other hid]
    exact hplace other

/-- Taking an envelope moves the stored cursor, or the write is dropped. The rows are as
sound as before, unless what is dropped would have taken the cursor back. -/
theorem Sound.applyNext (hlog : log.Lawful) (h : Sound log w) {e : Envelope Json}
    (hmem : e ∈ log.envelopes)
    (hnumber : e.sequenceNumber = w.cursor e.aggregateId + 1 ∨ e.sequenceNumber = 1) :
    let after := (runner.applyNext e w).2
    after.faults = w.faults ∧
      (w.fails = false ∧ after.lost = w.lost ∧ Sound log after ∧
          after.cursor = Function.update w.cursor e.aggregateId e.sequenceNumber ∨
        w.fails = true ∧ after.lost = ⟨w.cursor e.aggregateId, e.sequenceNumber⟩ :: w.lost ∧
          (w.cursor e.aggregateId ≤ e.sequenceNumber → Sound log after)) := by
  obtain ⟨stored, hstored, rfl⟩ := List.mem_map.mp hmem
  obtain ⟨place, hshows, hplace⟩ := h
  have hown := hplace stored.aggregateId
  have hnumber' : stored.sequenceNumber = w.cursor stored.aggregateId + 1 ∨
    stored.sequenceNumber = 1 := hnumber
  obtain ⟨rows, hrows, happly⟩ := applyNext_apply hlog hshows hstored (by omega)
  obtain ⟨hafter, hfaults, hwrite⟩ :=
    update_cases stored.aggregateId stored.sequenceNumber { w with rows }
  rw [happly]
  generalize (store.update profileProjectionName stored.aggregateId stored.sequenceNumber
    { w with rows }).2 = after at hafter hfaults hwrite
  change after.rows = rows at hafter
  rw [← hafter] at hrows
  refine ⟨hfaults, ?_⟩
  rcases hwrite with ⟨hfails, hlost, hcursor⟩ | ⟨hfails, hlost, hcursor⟩
  · refine .inl ⟨hfails, hlost, .of_move hplace hrows (fun other hother => ?_) ?_, hcursor⟩
    · rw [hcursor, Function.update_of_ne hother]
      rfl
    · rw [hcursor, Function.update_self]
      exact ⟨Nat.le_refl _, Nat.le_succ _⟩
  · refine .inr ⟨hfails, hlost, fun hle => .of_move hplace hrows (fun other _ => ?_) ?_⟩
    · rw [hcursor]
      rfl
    · rw [hcursor]
      change w.cursor stored.aggregateId ≤ stored.sequenceNumber ∧
        stored.sequenceNumber ≤ w.cursor stored.aggregateId + 1
      have hle' : w.cursor stored.aggregateId ≤ stored.sequenceNumber := hle
      omega

theorem receive_rows (e : Envelope Json) (w : FlakyCursors) :
    ∃ result rows, runner.projection.receive e w = (result, { w with rows }) := by
  simp only [runner, Runner.new, profileProjection, Projection.decoded]
  cases ProfileEvent.decode e.payload with
  | error cause => exact ⟨_, w.rows, rfl⟩
  | ok event =>
    change ∃ result rows, (RowTable.store rowCell).project event w = (result, { w with rows })
    rcases event.kinds with ⟨userId, hchange⟩ | hchange | ⟨hcreation, hretired⟩
    · rw [RowStore.project_of_created hchange]
      exact ⟨_, _, rfl⟩
    · rw [RowStore.project_of_retired hchange]
      exact ⟨_, _, rfl⟩
    · rw [RowStore.project_of_update hcreation hretired]
      cases hrow : w.rows.get? event.profileId with
      | some row => exact ⟨_, _, change_apply hrow _⟩
      | none =>
        refine ⟨.error (.missingRecord event.profileId), w.rows, ?_⟩
        rw [RowStore.change, bind_apply, get_apply, hrow]
        rfl

theorem lost_subset_applyNext (e : Envelope Json) (w : FlakyCursors) :
    w.lost ⊆ (runner.applyNext e w).2.lost := by
  obtain ⟨result, rows, hresult⟩ : ∃ result rows,
      (if runner.projection.handles e.eventType then runner.projection.receive e
        else pure (.ok ())) w = (result, { w with rows }) := by
    split
    · exact receive_rows e w
    · exact ⟨.ok (), w.rows, rfl⟩
  rw [Runner.applyNext, bind_apply, hresult]
  cases result with
  | error error => exact List.Subset.refl _
  | ok =>
    obtain ⟨_, _, hwrite⟩ := update_cases e.aggregateId e.sequenceNumber { w with rows }
    change w.lost ⊆ (store.update profileProjectionName e.aggregateId e.sequenceNumber
      { w with rows }).2.lost
    rcases hwrite with ⟨_, hlost, _⟩ | ⟨_, hlost, _⟩
    · rw [hlost]
      exact List.Subset.refl _
    · rw [hlost]
      exact List.subset_cons_self _ _

/-- While the rows are at their stored cursors or one event further, this stays so, whatever
fails, as long as no write is dropped that would take a cursor back. -/
theorem stable_sound (hlog : log.Lawful) :
    runner.Stable (· ∈ log.envelopes) fun w => w.Harmless → Sound log w where
  note _ _ h hharmless := (h hharmless).congr rfl rfl
  read id w h := by
    rw [cursor_apply]
    exact fun hharmless => (h hharmless).congr rfl rfl
  next {e w} hmem h hnext := by
    rw [cursor_apply] at hnext ⊢
    have hnumber : e.sequenceNumber = w.called.cursor e.aggregateId + 1 ∨ e.sequenceNumber = 1 := by
      dsimp only at hnext
      split at hnext
      · exact .inr hnext
      · exact .inl hnext
    intro hharmless
    have hbefore : w.Harmless := fun write hwrite =>
      hharmless write (lost_subset_applyNext e w.called hwrite)
    have hsound : Sound log w.called := (h hbefore).congr rfl rfl
    obtain ⟨_, ⟨_, _, hafter, _⟩ | ⟨_, hlost, hafter⟩⟩ := hsound.applyNext hlog hmem hnumber
    · exact hafter
    · rw [Harmless, hlost] at hharmless
      exact hafter (hharmless _ List.mem_cons_self)

/-- The cursor store works, and every stored cursor has reached some place. -/
structure Recovering (log : EventLog) (reached : AggregateId → Nat) (w : FlakyCursors) : Prop where
  sound : Sound log w
  works : ∀ call, w.faults call = false
  reached : reached ≤ w.cursor

theorem Recovering.congr {reached : AggregateId → Nat} {a b : FlakyCursors}
    (h : Recovering log reached a) (hrows : b.rows = a.rows) (hcursor : b.cursor = a.cursor)
    (hfaults : b.faults = a.faults) : Recovering log reached b where
  sound := h.sound.congr hrows hcursor
  works := hfaults ▸ h.works
  reached := hcursor ▸ h.reached

theorem Recovering.cursor_apply {reached : AggregateId → Nat} (h : Recovering log reached w)
    (id : AggregateId) : runner.cursor id w = (w.cursor id, w.called) := by
  rw [FlakyCursors.cursor_apply, fails, h.works]
  rfl

theorem Recovering.applyNext (hlog : log.Lawful) {reached : AggregateId → Nat}
    (h : Recovering log reached w) {e : Envelope Json} (hmem : e ∈ log.envelopes)
    (hnext : e.sequenceNumber = w.cursor e.aggregateId + 1) :
    Recovering log (Function.update reached e.aggregateId e.sequenceNumber)
      (runner.applyNext e w).2 := by
  obtain ⟨hfaults, ⟨_, _, hsound, hcursor⟩ | ⟨hfails, _⟩⟩ :=
    h.sound.applyNext hlog hmem (.inl hnext)
  · refine ⟨hsound, hfaults ▸ h.works, ?_⟩
    rw [hcursor, update_le_update_iff]
    exact ⟨Nat.le_refl _, fun id _ => h.reached id⟩
  · rw [fails, h.works] at hfails
    contradiction

/-- Once the cursor store works, no cursor goes back. -/
theorem stable_recovering (hlog : log.Lawful) (reached : AggregateId → Nat) :
    runner.Stable (· ∈ log.envelopes) (Recovering log reached) where
  note _ _ h := h.congr rfl rfl rfl
  read id w h := by
    rw [h.cursor_apply]
    exact h.congr rfl rfl rfl
  next {e w} hmem h hnext := by
    rw [h.cursor_apply] at hnext ⊢
    have hcalled : Recovering log reached w.called := h.congr rfl rfl rfl
    have hafter := hcalled.applyNext hlog hmem hnext
    refine ⟨hafter.sound, hafter.works, le_trans ?_ hafter.reached⟩
    exact le_update_self_iff.mpr (hnext ▸ Nat.le_succ_of_le (h.reached _))

/-- An envelope behind which every cursor has come is taken, if it was not before. -/
theorem dispatch_recovering (hlog : log.Lawful) {reached : AggregateId → Nat}
    {reg : Registry FlakyCursors}
    (h : Registry.Keeps (· ∈ log.envelopes) (runner.Remains (· ∈ log.envelopes) (Recovering log reached))
      reg w) {e : Envelope Json} (hmem : e ∈ log.envelopes)
    (hnext : e.sequenceNumber = reached e.aggregateId + 1) :
    Registry.Keeps (· ∈ log.envelopes) (runner.Remains (· ∈ log.envelopes)
      (Recovering log (Function.update reached e.aggregateId e.sequenceNumber)))
      (reg.dispatch e w).1.2 (reg.dispatch e w).2 := by
  obtain ⟨⟨r, hruns, hr⟩, hqueue⟩ := h
  obtain ⟨runners, o⟩ := reg
  subst hruns
  have hstate := hr.state
  have hcalled : Recovering log reached w.called := hstate.congr rfl rfl rfl
  have hown : reached e.aggregateId ≤ w.cursor e.aggregateId := hstate.reached _
  have hstable := stable_recovering hlog (Function.update reached e.aggregateId e.sequenceNumber)
  refine hstable.invariant.dispatch_of hqueue hmem (hstable.apply_of hr hmem ?_ ?_ ?_)
  · rw [hr.cursor_eq, hstate.cursor_apply]
    intro hbehind
    refine ⟨hcalled.sound, hcalled.works, ?_⟩
    exact update_le_iff.mpr ⟨hbehind, fun id _ => hcalled.reached id⟩
  · rw [hr.cursor_eq, hstate.cursor_apply]
    intro hahead
    exact absurd hahead (by dsimp only; omega)
  · rw [hr.cursor_eq, hr.applyNext_eq, hstate.cursor_apply]
    exact hcalled.applyNext hlog hmem

theorem dispatchAll_recovering (hlog : log.Lawful) {reached last : AggregateId → Nat}
    {es : List (Envelope Json)} (hleads : Leads reached es last) (hes : ∀ e ∈ es, e ∈ log.envelopes)
    {reg : Registry FlakyCursors}
    (h : Registry.Keeps (· ∈ log.envelopes) (runner.Remains (· ∈ log.envelopes) (Recovering log reached))
      reg w) :
    Registry.Keeps (· ∈ log.envelopes) (runner.Remains (· ∈ log.envelopes) (Recovering log last))
      (reg.dispatchAll es w).1 (reg.dispatchAll es w).2 := by
  induction hleads generalizing reg w with
  | nil => exact h
  | cons next _ ih =>
    rw [List.forall_mem_cons] at hes
    exact ih hes.2 (dispatch_recovering hlog h hes.1 next)

end FlakyCursors

namespace Registry.Keeps
variable {ω : Type} [Journal ω] {log : EventLog} {I : Runner ω → ω → Prop} {reg : Registry ω} {w : ω}

theorem answer (h : Keeps (· ∈ log.envelopes) I reg w) (hI : Invariant (· ∈ log.envelopes) I)
    {call : RegistryCall} (hcall : ∀ e, call = .dispatch e → e ∈ log.envelopes)
    (hrebuild : ∀ read, call ≠ .rebuild read) :
    Keeps (· ∈ log.envelopes) I (reg.answer log call w).1 (reg.answer log call w).2 := by
  cases call with
  | dispatch e => exact h.dispatch hI (hcall e rfl)
  | retryFailed => exact h.retryFailed hI
  | catchUp read =>
    exact h.catchUp hI (log.copy read) rfl fun events hevents =>
      EventLog.envelopes_of_commits (RowModel.copy_commits read events hevents)
  | rebuild read => exact absurd rfl (hrebuild read)

theorem answerAll (h : Keeps (· ∈ log.envelopes) I reg w) (hI : Invariant (· ∈ log.envelopes) I)
    {calls : List RegistryCall} (hcalls : ∀ e, .dispatch e ∈ calls → e ∈ log.envelopes)
    (hrebuild : ∀ read, .rebuild read ∉ calls) :
    Keeps (· ∈ log.envelopes) I (reg.answerAll log calls w).1 (reg.answerAll log calls w).2 := by
  induction calls generalizing reg w with
  | nil => exact h
  | cons call calls ih =>
    have hfirst := h.answer hI (fun e he => hcalls e (he ▸ List.mem_cons_self))
      fun read hread => hrebuild read (hread ▸ List.mem_cons_self)
    exact ih hfirst (fun e he => hcalls e (List.mem_cons_of_mem _ he))
      fun read hread => hrebuild read (List.mem_cons_of_mem _ hread)

end Registry.Keeps

namespace FlakyCursors
variable {log : EventLog} {w : FlakyCursors}

theorem Recovering.eq_ofCommits (hlog : log.Lawful)
    (h : Recovering log (EventLog.lengths log.commits) w) :
    w.rows = .ofCommits log.commits ∧ ∀ id, w.cursor id = (log.stream id).length := by
  obtain ⟨place, hshows, hnear⟩ := h.sound
  have hreached : ∀ id, (log.stream id).length ≤ w.cursor id := fun id =>
    hlog.consistent.lengths_commits id ▸ h.reached id
  have hplace : ∀ id, place id = (log.stream id).length := fun id =>
    Nat.le_antisymm (hshows.bound id) (Nat.le_trans (hreached id) (hnear id).1)
  refine ⟨hshows.eq_ofCommits hlog hplace, fun id => ?_⟩
  exact Nat.le_antisymm (Nat.le_trans (hnear id).1 (hshows.bound id)) (hreached id)

end FlakyCursors

/-- However a registry is asked to follow a log that commands have written, and however reads
and writes of its cursors fail meanwhile: if no write was dropped that would have taken a
cursor back, then, once the cursor store works again, one catch-up leaves the rows of the
whole log and every cursor at the end of its stream. -/
theorem answerAll_recovers (log : EventLog) (hlog : log.Written) (faults : Nat → Bool)
    (bus : Bus ProjectionUpdated) (calls : List RegistryCall)
    (hcalls : ∀ e, .dispatch e ∈ calls → e ∈ log.envelopes)
    (hrebuild : ∀ read, .rebuild read ∉ calls) :
    let after := Registry.answerAll log ⟨[FlakyCursors.runner], ⟨[], bus⟩⟩ calls (.start faults)
    let caught := after.1.catchUp (.replica (.ok log.commits)) after.2.healed
    after.2.Harmless → caught.2.rows = .ofCommits log.commits ∧
      ∀ id, caught.2.cursor id = (log.stream id).length := by
  intro after caught hharmless
  have hlawful := hlog.lawful
  have hstart : Registry.Keeps (· ∈ log.envelopes)
      (FlakyCursors.runner.Remains (· ∈ log.envelopes) fun w => w.Harmless → w.Sound log)
      ⟨[FlakyCursors.runner], ⟨[], bus⟩⟩ (.start faults) :=
    ⟨⟨_, rfl, rfl, fun _ he => absurd he List.not_mem_nil, fun _ => .start log faults⟩,
      fun _ hf => absurd hf List.not_mem_nil⟩
  obtain ⟨⟨r, hr, hremains⟩, hqueue⟩ := hstart.answerAll
    (FlakyCursors.stable_sound hlawful).invariant hcalls hrebuild
  have hhealed : Registry.Keeps (· ∈ log.envelopes)
      (FlakyCursors.runner.Remains (· ∈ log.envelopes) (FlakyCursors.Recovering log fun _ => 0))
      after.1 after.2.healed := by
    refine ⟨⟨r, hr, hremains.runner, hremains.parked, ?_⟩, hqueue⟩
    exact ⟨(hremains.state hharmless).congr rfl rfl, fun _ => rfl, fun _ => Nat.zero_le _⟩
  have hdispatched := FlakyCursors.dispatchAll_recovering hlawful
    (hlawful.consistent.leads (List.nil_append log.commits).symm) (fun _ he => he) hhealed
  obtain ⟨⟨_, _, hcaught⟩, _⟩ := Registry.Keeps.catchUp_of
    (FlakyCursors.stable_recovering hlawful _).invariant (.replica (.ok log.commits)) rfl hdispatched
  exact hcaught.state.eq_ofCommits hlawful

/-- The first cursor is not written, so the second event waits; then a failed read has the
profile created anew, and the catch-up mints it once more. -/
theorem answerAll_recovers_mintedLog :
    let calls := (mintedLog.envelopes ++ (mintedLog.envelopes ++ mintedLog.envelopes.take 1)).map .dispatch
    let faults (call : Nat) := call == 1 || call == 12
    mintedLog.Written ∧ (∀ e, .dispatch e ∈ calls → e ∈ mintedLog.envelopes) ∧
      (∀ read, .rebuild read ∉ calls) ∧
      let after := Registry.answerAll mintedLog ⟨[FlakyCursors.runner], ⟨[], .new⟩⟩ calls (.start faults)
      let caught := after.1.catchUp (.replica (.ok mintedLog.commits)) after.2.healed
      after.2.Harmless ∧ after.2.lost ≠ [] ∧ caught.2.rows = .ofCommits mintedLog.commits ∧
        ∀ id, caught.2.cursor id = (mintedLog.stream id).length := by
  intro calls faults
  have hlog := mintedLog_written
  have hcalls : ∀ e, .dispatch e ∈ calls → e ∈ mintedLog.envelopes := by
    intro e he
    obtain ⟨_, hmem, ⟨⟩⟩ := List.mem_map.mp he
    refine (List.mem_append.mp hmem).elim id fun hagain => ?_
    exact (List.mem_append.mp hagain).elim id List.mem_of_mem_take
  have hrebuild : ∀ read, .rebuild read ∉ calls := by
    intro read hread
    obtain ⟨_, _, ⟨⟩⟩ := List.mem_map.mp hread
  have hharmless : (Registry.answerAll mintedLog ⟨[FlakyCursors.runner], ⟨[], .new⟩⟩ calls
      (.start faults)).2.Harmless := by
    decide +kernel
  exact ⟨hlog, hcalls, hrebuild, hharmless, by decide +kernel,
    answerAll_recovers mintedLog hlog faults .new calls hcalls hrebuild hharmless⟩

/-- The profile has been minted when a failed read has it created anew. The write that
follows is dropped, the stored cursor stays at the second event, and the row never hears of
the minting again. -/
theorem answerAll_forgets_mintedLog :
    let calls := (mintedLog.envelopes ++ mintedLog.envelopes.take 1).map .dispatch
    let faults (call : Nat) := call == 8 || call == 9
    mintedLog.Written ∧ (∀ e, .dispatch e ∈ calls → e ∈ mintedLog.envelopes) ∧
      (∀ read, .rebuild read ∉ calls) ∧
      let after := Registry.answerAll mintedLog ⟨[FlakyCursors.runner], ⟨[], .new⟩⟩ calls (.start faults)
      let caught := after.1.catchUp (.replica (.ok mintedLog.commits)) after.2.healed
      caught.2.rows ≠ .ofCommits mintedLog.commits := by
  intro calls faults
  have hlog := mintedLog_written
  have hcalls : ∀ e, .dispatch e ∈ calls → e ∈ mintedLog.envelopes := by
    intro e he
    obtain ⟨_, hmem, ⟨⟩⟩ := List.mem_map.mp he
    exact (List.mem_append.mp hmem).elim id List.mem_of_mem_take
  have hrebuild : ∀ read, .rebuild read ∉ calls := by
    intro read hread
    obtain ⟨_, _, ⟨⟩⟩ := List.mem_map.mp hread
  refine ⟨hlog, hcalls, hrebuild, fun hrows => ?_⟩
  have hminted := congrArg (fun rows => (rows.get? ⟨⟨1⟩⟩).bind ProfileRow.mintedAt) hrows
  revert hminted
  decide +kernel

end IdentityLedger
