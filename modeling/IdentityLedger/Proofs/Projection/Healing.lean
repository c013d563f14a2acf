import IdentityLedger.Proofs.Projection.Conservation

/-!
# One retry heals

A store of rows that has stopped failing, after a run in which every event of a log was fed
to the registry. What is missing from the rows is then parked or queued, and of a stream
only the next event can be queued with others parked behind it. So one pass over the queue
brings every cursor to its end, in whatever order the failures were queued.
-/
namespace IdentityLedger

/-- What is lawful as observed by rows is so as observed by the cursors of its projection, if
no other projection has any. -/
theorem Observation.Lawful.ofName {ω σ : Type} [Journal ω] {o : Observation ω σ}
    {p : Projection ω} {cursors : CursorStore ω} {cursor : String → ω → AggregateId → Nat}
    (h : o.Lawful p cursors) (hown : o.cursor = cursor p.name)
    (hothers : ∀ name ≠ p.name, ∀ a b, cursor name b = cursor name a) :
    (Observation.ofName cursor p.name).Lawful p cursors := by
  have hlater : ∀ a b, (Observation.ofName cursor p.name).later a b :=
    fun a b name hname => hothers name hname a b
  obtain ⟨own, model, later, effect, vacant⟩ := o
  change own = cursor p.name at hown
  subst hown
  exact {
    frame := ⟨fun w => hlater w w, fun _ _ => hlater _ _, fun _ w => hlater w _⟩
    cursor_note := h.cursor_note
    model_note := fun _ _ => rfl
    get := h.get
    cursor_update := h.cursor_update
    model_update := fun _ _ _ => rfl
    later_update := fun _ _ _ => hlater _ _
    cursor_clear := h.cursor_clear
    model_clear := fun _ => rfl
    later_clear := fun _ => hlater _ _
    receive := fun e w => by
      have hreceive := h.receive e w
      generalize p.receive e w = step at hreceive
      obtain ⟨_ | _, w'⟩ := step
      · exact ⟨hreceive.cursor, rfl, hlater _ _⟩
      · exact ⟨hreceive.1, trivial, hlater _ _⟩
    reset := fun w => by
      have hreset := h.reset w
      generalize p.reset w = step at hreset
      obtain ⟨_ | _, w'⟩ := step
      · exact ⟨hreset.cursor, rfl, hlater _ _⟩
      · exact ⟨trivial, hlater _ _⟩ }

namespace RowModel
variable {ω : Type} [Journal ω] {m : RowModel ω} {log : EventLog} {r : Runner ω} {w : ω}

variable (m) in
def cursorOf (name : String) : ω → AggregateId → Nat :=
  if name = profileProjectionName then m.cursor else fun _ _ => 0

theorem cursorOf_profiles : m.cursorOf profileProjectionName = m.cursor := if_pos rfl

theorem balanced_start (log : List (Envelope Json)) (bus : Bus ProjectionUpdated) (w : ω) :
    Registry.Balanced m.cursorOf log [] [profileProjectionName] [] [m.runner] ⟨[], bus⟩ w := by
  have hlawful : (Observation.ofName m.cursorOf profileProjectionName).Lawful
      (profileProjection m.rows) m.cursors := by
    refine m.lawful.ofName cursorOf_profiles.symm fun name hname a b => ?_
    have hother : name ≠ profileProjectionName := hname
    rw [cursorOf, if_neg hother]
  have hstart : ∀ r ∈ [m.runner], (Observation.ofName m.cursorOf r.name).Lawful r.projection
      r.cursors ∧ r.backlog.envelopes = [] := by
    rw [List.forall_mem_singleton]
    exact ⟨hlawful, rfl⟩
  exact .start hstart log bus w

theorem Follows.name_eq (h : m.Follows log r w) : r.name = profileProjectionName := by
  rw [h.runner]
  rfl

/-- The read model is reliable, and updates have been tried again: nothing was queued, and all
of them are accounted for besides what was so before. -/
structure Retried (m : RowModel ω) (log : EventLog) (es : List (Envelope Json)) (r : Runner ω)
    (o : Outbox) (w : ω) (r' : Runner ω) (o' : Outbox) (w' : ω) : Prop where
  follows : m.Follows log r' w'
  steady : m.steady w'
  failed : o'.failed = o.failed
  accounts : ∀ e, e ∈ es ∨ m.Accounts r w e → m.Accounts r' w' e

theorem Follows.retryOne_steady (hlog : log.Lawful) (h : m.Follows log r w) (hsteady : m.steady w)
    (o : Outbox) {failure : FailedUpdate} (hmem : failure.envelope ∈ log.envelopes)
    (hname : failure.projection = profileProjectionName) :
    ∃ r' o' w', Registry.retryOne failure [r] o w = ((true, [r'], o'), w') ∧
      m.Retried log [failure.envelope] r o w r' o' w' := by
  obtain ⟨answer, r', w', happly, haccepted⟩ := h.accepts hlog hsteady hmem
  have haccounts : ∀ e, e ∈ [failure.envelope] ∨ m.Accounts r w e → m.Accounts r' w' e :=
    fun e hold => haccepted.accounts e (hold.imp_left List.mem_singleton.mp)
  rw [Registry.retryOne, if_pos (h.name_eq.trans hname.symm), bind_apply, happly]
  cases answer with
  | applied progress =>
    obtain ⟨hfailed, hworld⟩ :=
      Outbox.failed_settle (o := o) haccepted.stalled failure.projection w'
    refine ⟨r', _, w', Prod.ext rfl hworld, haccepted.follows, haccepted.steady, hfailed, haccounts⟩
  | duplicate => exact ⟨r', o, w', rfl, haccepted.follows, haccepted.steady, rfl, haccounts⟩
  | parked => exact ⟨r', o, w', rfl, haccepted.follows, haccepted.steady, rfl, haccounts⟩

theorem Follows.retryEach_steady (hlog : log.Lawful) (h : m.Follows log r w) (hsteady : m.steady w)
    (o : Outbox) {failures : List FailedUpdate} (hmem : ∀ f ∈ failures, f.envelope ∈ log.envelopes)
    (hnames : ∀ f ∈ failures, f.projection = profileProjectionName) :
    ∃ r' o' w', Registry.retryEach failures [r] o w = ((failures.length, [r'], o'), w') ∧
      m.Retried log (failures.map FailedUpdate.envelope) r o w r' o' w' := by
  induction failures generalizing r o w with
  | nil => exact ⟨r, o, w, rfl, h, hsteady, rfl, fun _ hold => hold.resolve_left List.not_mem_nil⟩
  | cons failure failures ih =>
    rw [List.forall_mem_cons] at hmem hnames
    obtain ⟨r', o', w', hone, hfirst⟩ := h.retryOne_steady hlog hsteady o hmem.1 hnames.1
    obtain ⟨r'', o'', w'', heach, hrest⟩ :=
      ih hfirst.follows hfirst.steady o' hmem.2 hnames.2
    refine ⟨r'', o'', w'', ?_, hrest.follows, hrest.steady, hrest.failed.trans hfirst.failed, ?_⟩
    · rw [Registry.retryEach, bind_apply, hone]
      simp only [bind_apply, heach, pure_apply, if_pos, List.length_cons, Nat.add_comm]
    · rintro e (hold | hold)
      · rcases List.mem_cons.mp hold with rfl | hlater
        · exact hrest.accounts _ (.inr (hfirst.accounts _ (.inl List.mem_cons_self)))
        · exact hrest.accounts e (.inl hlater)
      · exact hrest.accounts e (.inr (hfirst.accounts e (.inr hold)))

/-- A registry that has been fed a whole log, over a read model that works again, resolves every
queued failure and comes to the end of the log. -/
theorem Tracked.retryFailed_steady (hlog : log.Lawful) {reg : Registry ω} (h : m.Tracked log reg w)
    (hsteady : m.steady w) {seen : List (Envelope Json)}
    (hbalanced : Registry.Balanced m.cursorOf log.envelopes seen [profileProjectionName] []
      reg.runners reg.outbox w) (hseen : ∀ e ∈ log.envelopes, e ∈ seen) :
    let after := reg.retryFailed w
    after.1.1 = reg.failedCount ∧ after.1.2.failures = [] ∧ m.AtEnd log after.2 := by
  obtain ⟨⟨r, hr, hfollows⟩, hqueue⟩ := h
  have haccounts := hbalanced.accounts r (hr ▸ List.mem_singleton_self r)
  have hnames : ∀ f ∈ reg.failures, f.projection = profileProjectionName :=
    fun f hf => List.mem_singleton.mp (hbalanced.owned f hf)
  obtain ⟨runners, outbox⟩ := reg
  subst hr
  obtain ⟨r', o', w', heach, hretried⟩ := hfollows.retryEach_steady hlog hsteady
    { outbox with failed := [] } hqueue hnames
  have hall : ∀ e ∈ log.envelopes, m.Accounts r' w' e := by
    intro e he
    refine hretried.accounts e ?_
    rcases haccounts.placed e (hseen e he) with hbehind | hparked | howes
    · rw [hfollows.name_eq] at hbehind
      exact .inr (.inl (cursorOf_profiles (m := m) ▸ hbehind))
    · exact .inr (.inr hparked)
    · obtain ⟨f, hf, _, rfl⟩ := Registry.owes_nil.mp howes
      exact .inl (List.mem_map_of_mem hf)
  -- the queue was all that was neither applied nor parked, so the retries leave no gap
  have hend := hretried.follows.atEnd hlog hall
  have htracked : m.Tracked log ⟨[r'], o'⟩ w' :=
    ⟨⟨r', rfl, hretried.follows⟩, fun f hf => absurd (hretried.failed ▸ hf) List.not_mem_nil⟩
  simp only [Registry.retryFailed, Registry.failures, bind_apply, heach, htracked.drainParked]
  split
  · exact ⟨rfl, hretried.failed, hend.still (m.tracks.still.note _ w')⟩
  · exact ⟨rfl, hretried.failed, hend⟩

end RowModel

/-- However a registry was asked to follow a log that commands have written, short of a rebuild,
and however its row store failed meanwhile: if every event was dispatched or fed by catching
up, then, once the store works again, one retry resolves every failure that was queued and
leaves nothing to do. -/
theorem answerAll_heals (log : EventLog) (hlog : log.Written)
    (hids : (log.envelopes.map Envelope.eventId).Nodup) (faults : Nat → Option ProjectionError)
    (bus : Bus ProjectionUpdated) (calls : List RegistryCall)
    (hcalls : ∀ e, .dispatch e ∈ calls → e ∈ log.envelopes)
    (hrebuild : ∀ read, .rebuild read ∉ calls)
    (hall : ∀ e ∈ log.envelopes, e ∈ calls.flatMap (RegistryCall.fed log)) :
    let after := Registry.answerAll log ⟨[FlakyRows.model.runner], ⟨[], bus⟩⟩ calls (.start faults)
    let retried := after.1.retryFailed after.2.healed
    retried.1.1 = after.1.failedCount ∧ FlakyRows.CaughtUp log retried.1.2 retried.2 := by
  intro after retried
  have hlawful := hlog.lawful
  have hafter : FlakyRows.model.Tracked log after.1 after.2 :=
    (RowModel.Tracked.start rfl rfl bus).answerAll hlawful hcalls
  have hhealed : FlakyRows.model.Tracked log after.1 after.2.healed := hafter.congr rfl rfl
  have hstart := RowModel.balanced_start (m := FlakyRows.model) log.envelopes bus (.start faults)
  have hbalanced : Registry.Balanced FlakyRows.model.cursorOf log.envelopes
      ([] ++ calls.flatMap (RegistryCall.fed log)) [profileProjectionName] [] after.1.runners
      after.1.outbox after.2 :=
    Registry.Balanced.answerAll hlawful.consistent.gapless hids (List.nodup_singleton _) hstart
      hcalls hrebuild
  have hworks : Registry.Balanced FlakyRows.model.cursorOf log.envelopes
      (calls.flatMap (RegistryCall.fed log)) [profileProjectionName] [] after.1.runners
      after.1.outbox after.2.healed := by
    refine hbalanced.frame fun r _ => ?_
    rw [RowModel.cursorOf]
    split <;> rfl
  obtain ⟨hcount, hfailures, hend⟩ := hhealed.retryFailed_steady hlawful
    (FlakyRows.steady_healed after.2) hworks hall
  exact ⟨hcount, FlakyRows.caughtUp_of_atEnd hlawful (hhealed.retryFailed hlawful) hend hfailures⟩

/-- The second event comes first, and the first one fails and then fails again. -/
theorem answerAll_heals_mintedLog :
    let calls := mintedLog.envelopes.reverse.map .dispatch ++ [.retryFailed]
    let faults (call : Nat) := if call < 2 then some (.store "unavailable") else none
    mintedLog.Written ∧ (mintedLog.envelopes.map Envelope.eventId).Nodup ∧
      (∀ e, .dispatch e ∈ calls → e ∈ mintedLog.envelopes) ∧ (∀ read, .rebuild read ∉ calls) ∧
      (∀ e ∈ mintedLog.envelopes, e ∈ calls.flatMap (RegistryCall.fed mintedLog)) ∧
      let after := Registry.answerAll mintedLog ⟨[FlakyRows.model.runner], ⟨[], .new⟩⟩ calls
        (.start faults)
      let retried := after.1.retryFailed after.2.healed
      after.1.failures.map FailedUpdate.attempts = [2] ∧
        after.1.runners.map Runner.parkedCount = [1] ∧
        retried.1.1 = after.1.failedCount ∧ FlakyRows.CaughtUp mintedLog retried.1.2 retried.2 := by
  intro calls faults
  have hlog := mintedLog_written
  have hids : (mintedLog.envelopes.map Envelope.eventId).Nodup := by decide +kernel
  have hcalls : ∀ e, .dispatch e ∈ calls → e ∈ mintedLog.envelopes := by
    intro e he
    simpa [calls] using he
  have hrebuild : ∀ read, .rebuild read ∉ calls := by
    intro read
    simp [calls]
  have hall : ∀ e ∈ mintedLog.envelopes, e ∈ calls.flatMap (RegistryCall.fed mintedLog) := by
    intro e he
    simpa [calls, RegistryCall.fed] using he
  refine ⟨hlog, hids, hcalls, hrebuild, hall, ?_, ?_, ?_⟩
  · decide +kernel
  · decide +kernel
  · exact answerAll_heals mintedLog hlog hids faults .new calls hcalls hrebuild hall

end IdentityLedger
