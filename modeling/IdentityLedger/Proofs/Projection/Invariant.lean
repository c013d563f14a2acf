import IdentityLedger.Proofs.Projection.Backlog
import IdentityLedger.Proofs.Projection.Outbox

/-!
# What every operation of a registry keeps

A property of states is kept by a runner if reports, reads of a cursor and envelopes that
are next in their stream keep it, whatever the cursor store answers. A property of a
runner and its state is kept by a registry if submissions and retries keep it.
-/
namespace IdentityLedger
variable {ω : Type} [Journal ω] {K : Envelope Json → Prop}

namespace Runner
variable {base r : Runner ω} {P : ω → Prop} {w : ω}

/-- Reports, reads of a cursor and envelopes of a kind that are next in their stream, as far
as the cursor shows, keep a property of states. -/
structure Stable (base : Runner ω) (K : Envelope Json → Prop) (P : ω → Prop) : Prop where
  note : ∀ record {w}, P w → P (Journal.note record w)
  read : ∀ id {w}, P w → P (base.cursor id w).2
  next : ∀ {e w}, K e → P w → e.sequenceNumber = (base.cursor e.aggregateId w).1 + 1 →
    P (base.applyNext e (base.cursor e.aggregateId w).2).2

/-- A runner that differs from `base` in what is parked, which is of a kind, in a state with
a property. -/
structure Remains (base : Runner ω) (K : Envelope Json → Prop) (P : ω → Prop) (r : Runner ω)
    (w : ω) : Prop where
  runner : r = base.withBacklog r.backlog
  parked : ∀ e ∈ r.backlog.envelopes, K e
  state : P w

theorem Stable.withBacklog (h : base.Stable K P) (backlog : Backlog) :
    (base.withBacklog backlog).Stable K P := ⟨h.note, h.read, h.next⟩

theorem Remains.stable (hr : base.Remains K P r w) (h : base.Stable K P) : r.Stable K P := by
  rw [hr.runner]
  exact h.withBacklog _

omit [Journal ω] in
theorem Remains.cursor_eq (hr : base.Remains K P r w) : r.cursor = base.cursor := by
  rw [hr.runner]
  rfl

omit [Journal ω] in
theorem Remains.applyNext_eq (hr : base.Remains K P r w) : r.applyNext = base.applyNext := by
  rw [hr.runner]
  rfl

omit [Journal ω] in
theorem Remains.withBacklog {R : ω → Prop} {a b : ω} (hr : base.Remains K R r a) {backlog : Backlog}
    (hparked : ∀ e ∈ backlog.envelopes, K e) (hb : P b) :
    base.Remains K P (r.withBacklog backlog) b where
  runner := by
    rw [hr.runner]
    rfl
  parked := hparked
  state := hb

theorem Stable.drainRounds (h : r.Stable K P) (id : AggregateId) {rounds : Nat}
    {backlog : Backlog} (hparked : ∀ e ∈ backlog.envelopes, K e) (hw : P w) :
    let after := r.drainRounds id rounds backlog w
    P after.2 ∧ (∀ e ∈ after.1.2.envelopes, K e) ∧ ∀ s ∈ after.1.1.stalled, K s.envelope := by
  induction rounds generalizing backlog w with
  | zero => exact ⟨hw, hparked, fun _ hs => absurd hs List.not_mem_nil⟩
  | succ rounds ih =>
    rw [Runner.drainRounds, bind_apply]
    cases hfind : backlog.find? id ((r.cursor id w).1 + 1) with
    | none => exact ⟨h.read id hw, hparked, fun _ hs => absurd hs List.not_mem_nil⟩
    | some e =>
      obtain ⟨hmem, rfl, hnumber⟩ := Backlog.mem_of_find? hfind
      have hnext := h.next (hparked e hmem) hw hnumber
      have hrest : ∀ e' ∈ (backlog.remove e.aggregateId
          ((r.cursor e.aggregateId w).1 + 1)).envelopes, K e' :=
        fun e' he' => hparked e' (List.mem_filter.mp he').1
      simp only [bind_apply]
      generalize r.applyNext e (r.cursor e.aggregateId w).2 = step at hnext
      obtain ⟨_ | event, w'⟩ := step
      · refine ⟨h.note _ hnext, hrest, fun s hs => ?_⟩
        rw [List.mem_singleton.mp hs]
        exact hparked e hmem
      · exact ih hrest hnext

/-- Draining a stream hands back only what was parked. -/
theorem Stable.drain (h : base.Stable K P) (hr : base.Remains K P r w) (id : AggregateId) :
    base.Remains K P (r.drain id w).1.2 (r.drain id w).2 ∧
      ∀ s ∈ (r.drain id w).1.1.stalled, K s.envelope := by
  have hstable := hr.stable h
  obtain ⟨hstate, hparked, hstalled⟩ :
      let after := r.drainRounds id (r.backlog.size + 1) r.backlog w
      P after.2 ∧ (∀ e ∈ after.1.2.envelopes, K e) ∧ ∀ s ∈ after.1.1.stalled, K s.envelope :=
    hstable.drainRounds id hr.parked hr.state
  refine ⟨hr.withBacklog (fun e he => ?_) (hstable.read id hstate), hstalled⟩
  exact hparked e (List.mem_filter.mp he).1

theorem Stable.drainAll (h : base.Stable K P) (hr : base.Remains K P r w) (ids : List AggregateId) :
    base.Remains K P (r.drainAll ids w).1.2 (r.drainAll ids w).2 ∧
      ∀ s ∈ (r.drainAll ids w).1.1.stalled, K s.envelope := by
  induction ids generalizing r w with
  | nil => exact ⟨hr, fun _ hs => absurd hs List.not_mem_nil⟩
  | cons id ids ih =>
    obtain ⟨hfirst, hstalled⟩ := h.drain hr id
    obtain ⟨hrest, hstalled'⟩ := ih hfirst
    exact ⟨hrest, fun s hs => (List.mem_append.mp hs).elim (hstalled s) (hstalled' s)⟩

/-- Submitting an envelope leads to a stable property if every answer of the cursor store
does. -/
theorem Stable.apply_of {R : ω → Prop} (h : base.Stable K P) (hr : base.Remains K R r w)
    {e : Envelope Json} (he : K e)
    (hbehind : e.sequenceNumber ≤ (r.cursor e.aggregateId w).1 → P (r.cursor e.aggregateId w).2)
    (hahead : (r.cursor e.aggregateId w).1 + 1 < e.sequenceNumber →
      P (r.cursor e.aggregateId w).2)
    (hnext : e.sequenceNumber = (r.cursor e.aggregateId w).1 + 1 →
      P (r.applyNext e (r.cursor e.aggregateId w).2).2) :
    base.Remains K P (r.apply e w).1.2 (r.apply e w).2 ∧
      ∀ progress, (r.apply e w).1.1 = .ok (.applied progress) →
        ∀ s ∈ progress.stalled, K s.envelope := by
  rw [apply, bind_apply]
  generalize r.cursor e.aggregateId w = answer at hbehind hahead hnext ⊢
  obtain ⟨last, w'⟩ := answer
  dsimp only at hbehind hahead hnext ⊢
  by_cases hzero : e.sequenceNumber = 0
  · rw [if_pos hzero]
    exact ⟨⟨hr.runner, hr.parked, hbehind (hzero ▸ Nat.zero_le _)⟩, nofun⟩
  rw [if_neg hzero]
  by_cases hle : e.sequenceNumber ≤ last
  · rw [if_pos hle]
    exact ⟨⟨hr.runner, hr.parked, h.note _ (hbehind hle)⟩, nofun⟩
  rw [if_neg hle]
  by_cases hlt : e.sequenceNumber > last + 1
  · rw [if_pos hlt]
    refine ⟨hr.withBacklog (fun e' he' => ?_) (h.note _ (hahead hlt)), nofun⟩
    rcases Backlog.mem_park.mp he' with rfl | ⟨he', _⟩
    · exact he
    · exact hr.parked e' he'
  rw [if_neg hlt, bind_apply]
  have htaken := hnext (by omega)
  generalize r.applyNext e w' = step at htaken
  obtain ⟨_ | event, w''⟩ := step
  · exact ⟨⟨hr.runner, hr.parked, htaken⟩, nofun⟩
  · obtain ⟨hdrain, hstalled⟩ := h.drain ⟨hr.runner, hr.parked, htaken⟩ e.aggregateId
    refine ⟨hdrain, ?_⟩
    rintro progress ⟨⟩
    exact hstalled

theorem Stable.apply (h : base.Stable K P) (hr : base.Remains K P r w) {e : Envelope Json}
    (he : K e) : base.Remains K P (r.apply e w).1.2 (r.apply e w).2 ∧
      ∀ progress, (r.apply e w).1.1 = .ok (.applied progress) →
        ∀ s ∈ progress.stalled, K s.envelope := by
  have hstable := hr.stable h
  have hread := hstable.read e.aggregateId hr.state
  exact h.apply_of hr he (fun _ => hread) (fun _ => hread) (hstable.next he hr.state)

end Runner

namespace Registry
variable {I : Runner ω → ω → Prop} {r : Runner ω} {o : Outbox} {e : Envelope Json} {w : ω}

/-- Reports, submissions of envelopes of a kind, and retries keep a property of a runner and
its state, and what the runner hands back is of that kind. -/
structure Invariant (K : Envelope Json → Prop) (I : Runner ω → ω → Prop) : Prop where
  note : ∀ record {r w}, I r w → I r (Journal.note record w)
  apply : ∀ {r w}, I r w → ∀ {e}, K e → I (r.apply e w).1.2 (r.apply e w).2 ∧
    ∀ progress, (r.apply e w).1.1 = .ok (.applied progress) →
      ∀ s ∈ progress.stalled, K s.envelope
  retry : ∀ {r w}, I r w → I (r.retryParked w).1.2 (r.retryParked w).2 ∧
    ∀ s ∈ (r.retryParked w).1.1.stalled, K s.envelope

/-- A registry of one runner with a property, which has queued only envelopes of a kind. -/
structure Keeps (K : Envelope Json → Prop) (I : Runner ω → ω → Prop) (reg : Registry ω) (w : ω) :
    Prop where
  runners : ∃ r, reg.runners = [r] ∧ I r w
  queue : reg.outbox.Queues K

namespace Invariant

theorem frame (h : Invariant K I) (r : Runner ω) : Frame fun a b => I r a → I r b :=
  ⟨fun _ hr => hr, fun hab hbc hr => hbc (hab hr), fun record _ hr => h.note record hr⟩

theorem dispatch_of (h : Invariant K I) (ho : o.Queues K) (he : K e)
    (happly : I (r.apply e w).1.2 (r.apply e w).2 ∧
      ∀ progress, (r.apply e w).1.1 = .ok (.applied progress) →
        ∀ s ∈ progress.stalled, K s.envelope) :
    Keeps K I (Registry.dispatch ⟨[r], o⟩ e w).1.2 (Registry.dispatch ⟨[r], o⟩ e w).2 := by
  obtain ⟨happlied, hstalled⟩ := happly
  simp only [Registry.dispatch, Registry.feedAll, Registry.feed, bind_apply]
  generalize r.apply e w = step at happlied hstalled
  obtain ⟨⟨error | (progress | _ | _), r'⟩, w'⟩ := step
  · obtain ⟨hqueue, hkeeps⟩ := Outbox.recordFailure_spec (h.frame r') ho he r'.name error w'
    exact ⟨⟨r', rfl, hkeeps happlied⟩, hqueue⟩
  · obtain ⟨hqueue, hkeeps⟩ := Outbox.settle_spec (h.frame r') ho r'.name (hstalled progress rfl) w'
    exact ⟨⟨r', rfl, hkeeps happlied⟩, hqueue⟩
  · exact ⟨⟨r', rfl, happlied⟩, ho⟩
  · exact ⟨⟨r', rfl, happlied⟩, ho⟩

theorem retryOne (h : Invariant K I) (hr : I r w) (ho : o.Queues K) {failure : FailedUpdate}
    (hfailure : K failure.envelope) :
    ∃ resolved r' o' w', Registry.retryOne failure [r] o w = ((resolved, [r'], o'), w') ∧
      I r' w' ∧ o'.Queues K := by
  obtain ⟨happlied, hstalled⟩ := h.apply hr hfailure
  by_cases hname : r.name = failure.projection
  · rw [Registry.retryOne, if_pos hname, bind_apply]
    generalize r.apply failure.envelope w = step at happlied hstalled
    obtain ⟨⟨error | (progress | _ | _), r'⟩, w'⟩ := step
    · obtain ⟨hqueue, hkeeps⟩ := Outbox.requeue_spec (h.frame r') ho hfailure error w'
      exact ⟨false, r', _, _, rfl, hkeeps happlied, hqueue⟩
    · obtain ⟨hqueue, hkeeps⟩ :=
        Outbox.settle_spec (h.frame r') ho failure.projection (hstalled progress rfl) w'
      exact ⟨true, r', _, _, rfl, hkeeps happlied, hqueue⟩
    · exact ⟨true, r', o, w', rfl, happlied, ho⟩
    · exact ⟨true, r', o, w', rfl, happlied, ho⟩
  · rw [Registry.retryOne, if_neg hname]
    exact ⟨false, r, o, w, rfl, hr, ho⟩

theorem retryEach (h : Invariant K I) (hr : I r w) (ho : o.Queues K) {failures : List FailedUpdate}
    (hfailures : ∀ f ∈ failures, K f.envelope) :
    ∃ count r' o' w', Registry.retryEach failures [r] o w = ((count, [r'], o'), w') ∧
      I r' w' ∧ o'.Queues K := by
  induction failures generalizing r o w with
  | nil => exact ⟨0, r, o, w, rfl, hr, ho⟩
  | cons failure failures ih =>
    rw [List.forall_mem_cons] at hfailures
    obtain ⟨resolved, r', o', w', hone, hr', ho'⟩ := h.retryOne hr ho hfailures.1
    obtain ⟨count, r'', o'', w'', heach, hr'', ho''⟩ := ih hr' ho' hfailures.2
    refine ⟨(if resolved then 1 else 0) + count, r'', o'', w'', ?_, hr'', ho''⟩
    rw [Registry.retryEach, bind_apply, hone]
    simp only [bind_apply, heach]
    rfl

end Invariant

namespace Keeps
variable {reg : Registry ω}

theorem dispatch (h : Keeps K I reg w) (hI : Invariant K I) (he : K e) :
    Keeps K I (reg.dispatch e w).1.2 (reg.dispatch e w).2 := by
  obtain ⟨⟨r, hr, hrunner⟩, hqueue⟩ := h
  obtain ⟨runners, o⟩ := reg
  subst hr
  exact hI.dispatch_of hqueue he (hI.apply hrunner he)

theorem dispatchAll (h : Keeps K I reg w) (hI : Invariant K I) {es : List (Envelope Json)}
    (hes : ∀ e ∈ es, K e) : Keeps K I (reg.dispatchAll es w).1 (reg.dispatchAll es w).2 := by
  induction es generalizing reg w with
  | nil => exact h
  | cons e es ih =>
    rw [List.forall_mem_cons] at hes
    exact ih (h.dispatch hI hes.1) hes.2

theorem drainParked (h : Keeps K I reg w) (hI : Invariant K I) :
    Keeps K I (reg.drainParked w).1 (reg.drainParked w).2 := by
  obtain ⟨⟨r, hr, hrunner⟩, hqueue⟩ := h
  obtain ⟨runners, o⟩ := reg
  subst hr
  obtain ⟨hretried, hstalled⟩ := hI.retry hrunner
  simp only [Registry.drainParked, Registry.drainRunners, bind_apply]
  generalize r.retryParked w = step at hretried hstalled
  obtain ⟨⟨progress, r'⟩, w'⟩ := step
  obtain ⟨hqueue', hkeeps⟩ := Outbox.settle_spec (hI.frame r') hqueue r'.name hstalled w'
  exact ⟨⟨r', rfl, hkeeps hretried⟩, hqueue'⟩

theorem report (h : Keeps K I reg w) (hI : Invariant K I) (level : Level) (message : String)
    (fields : List (String × FieldValue)) :
    Keeps K I reg (Journal.report level message fields w).2 := by
  obtain ⟨⟨r, hr, hrunner⟩, hqueue⟩ := h
  exact ⟨⟨r, hr, hI.note _ hrunner⟩, hqueue⟩

theorem retryFailed (h : Keeps K I reg w) (hI : Invariant K I) :
    Keeps K I (reg.retryFailed w).1.2 (reg.retryFailed w).2 := by
  obtain ⟨⟨r, hr, hrunner⟩, hqueue⟩ := h
  obtain ⟨runners, o⟩ := reg
  subst hr
  obtain ⟨count, r', o', w', heach, hr', ho'⟩ :=
    hI.retryEach (o := { o with failed := [] }) hrunner (fun _ hf => absurd hf List.not_mem_nil) hqueue
  have hafter : Keeps K I ⟨[r'], o'⟩ w' := ⟨⟨r', rfl, hr'⟩, ho'⟩
  have hdrained := hafter.drainParked hI
  simp only [Registry.retryFailed, Registry.failures, bind_apply, heach]
  split
  · exact hdrained.report hI _ _ _
  · exact hdrained

theorem catchUp_of (hI : Invariant K I) (store : EventStore ω) {events : List StoredEvent}
    (hread : store.loadAll w = (.ok events, w))
    (h : Keeps K I (reg.dispatchAll (events.map StoredEvent.envelope) w).1
      (reg.dispatchAll (events.map StoredEvent.envelope) w).2) :
    Keeps K I (reg.catchUp store w).1.2 (reg.catchUp store w).2 := by
  rw [Registry.catchUp, bind_apply, hread]
  exact (h.drainParked hI).report hI _ _ _

theorem catchUp (h : Keeps K I reg w) (hI : Invariant K I) (store : EventStore ω)
    {answer : Except EventStoreError (List StoredEvent)} (hread : store.loadAll w = (answer, w))
    (hanswer : ∀ events, answer = .ok events → ∀ e ∈ events.map StoredEvent.envelope, K e) :
    Keeps K I (reg.catchUp store w).1.2 (reg.catchUp store w).2 := by
  cases answer with
  | error error =>
    rw [Registry.catchUp, bind_apply, hread]
    exact h
  | ok events => exact catchUp_of hI store hread (h.dispatchAll hI (hanswer events rfl))

end Keeps

end Registry

theorem Runner.Stable.invariant {base : Runner ω} {P : ω → Prop} (h : base.Stable K P) :
    Registry.Invariant K (base.Remains K P) where
  note record _ _ hr := ⟨hr.runner, hr.parked, h.note record hr.state⟩
  apply hr := h.apply hr
  retry hr := h.drainAll hr _

end IdentityLedger
