import IdentityLedger.Projection.Registry
import IdentityLedger.Proofs.Steps

/-!
# What is queued for a retry

Recording failures and putting them back adds no update but the one that failed, and
moves nothing but the journal. Settling a pass that applied and stalled nothing leaves
the outbox alone.
-/
namespace IdentityLedger.Outbox
variable {ω : Type} [Journal ω] {keeps : ω → ω → Prop} {P : Envelope Json → Prop} {o : Outbox}

/-- Every queued update is by an envelope of a kind. -/
def Queues (o : Outbox) (P : Envelope Json → Prop) : Prop := ∀ f ∈ o.failed, P f.envelope

omit [Journal ω] in
theorem map_amend {α : Type} {g : FailedUpdate → α} {f : FailedUpdate → FailedUpdate}
    (hf : ∀ failure, g (f failure) = g failure) (projection : String) (eventId : Uuid)
    (failures : List FailedUpdate) :
    (amend projection eventId f failures).map g = failures.map g := by
  induction failures with
  | nil => rfl
  | cons failure failures ih =>
    rw [amend]
    split
    · rw [List.map_cons, List.map_cons, hf]
    · rw [List.map_cons, List.map_cons, ih]

omit [Journal ω] in
theorem queues_amend {projection : String} {eventId : Uuid} {f : FailedUpdate → FailedUpdate}
    (hf : ∀ failure, (f failure).envelope = failure.envelope) {failures : List FailedUpdate}
    (h : ∀ failure ∈ failures, P failure.envelope) :
    ∀ failure ∈ amend projection eventId f failures, P failure.envelope := by
  have hmap := map_amend hf projection eventId failures
  rw [← List.forall_mem_map (f := FailedUpdate.envelope)] at h ⊢
  rw [hmap]
  exact h

/-- Queues a failure, or changes the one that is queued for the same update. -/
def enqueue (o : Outbox) (failure : FailedUpdate) (change : FailedUpdate → FailedUpdate) : Outbox :=
  { o with
    failed := match o.queued? failure.projection failure.envelope.eventId with
      | some _ => amend failure.projection failure.envelope.eventId change o.failed
      | none => o.failed ++ [failure] }

omit [Journal ω] in
theorem queues_enqueue (h : o.Queues P) {failure : FailedUpdate} (hfailure : P failure.envelope)
    {change : FailedUpdate → FailedUpdate} (hchange : ∀ f, (change f).envelope = f.envelope) :
    (o.enqueue failure change).Queues P := by
  rw [enqueue]
  cases o.queued? failure.projection failure.envelope.eventId with
  | some existing => exact queues_amend hchange h
  | none =>
    intro f hmem
    rcases List.mem_append.mp hmem with hmem | hmem
    · exact h f hmem
    · rw [List.mem_singleton.mp hmem]
      exact hfailure

theorem recordFailure_eq (projection : String) (e : Envelope Json) (error : ProjectionError) (w : ω) :
    (o.recordFailure projection e error w).1 =
      o.enqueue ⟨projection, e, error, 1⟩ fun f => { f with attempts := f.attempts + 1, error } := by
  rw [recordFailure, enqueue]
  cases o.queued? projection e.eventId <;> rfl

theorem requeue_eq (failure : FailedUpdate) (error : ProjectionError) (w : ω) :
    (o.requeue failure error w).1 =
      o.enqueue { failure with attempts := failure.attempts + 1, error }
        fun f => { f with attempts := f.attempts + failure.attempts, error } := by
  rw [requeue, enqueue]
  cases o.queued? failure.projection failure.envelope.eventId <;> rfl

theorem recordFailure_spec (hframe : Frame keeps) (h : o.Queues P) {e : Envelope Json} (he : P e)
    (projection : String) (error : ProjectionError) (w : ω) :
    (o.recordFailure projection e error w).1.Queues P ∧
      keeps w (o.recordFailure projection e error w).2 := by
  refine ⟨?_, hframe.note _ w⟩
  rw [recordFailure_eq]
  exact queues_enqueue h he fun _ => rfl

theorem requeue_spec (hframe : Frame keeps) (h : o.Queues P) {failure : FailedUpdate}
    (hfailure : P failure.envelope) (error : ProjectionError) (w : ω) :
    (o.requeue failure error w).1.Queues P ∧ keeps w (o.requeue failure error w).2 := by
  constructor
  · rw [requeue_eq]
    refine queues_enqueue h ?_ fun _ => rfl
    exact hfailure
  · rw [requeue]
    cases o.queued? failure.projection failure.envelope.eventId with
    | some existing => exact hframe.refl w
    | none => exact hframe.note _ w

theorem recordStalled_spec (hframe : Frame keeps) (h : o.Queues P) (projection : String)
    {stalled : List StalledEnvelope} (hstalled : ∀ s ∈ stalled, P s.envelope) (w : ω) :
    (recordStalled projection stalled o w).1.Queues P ∧
      keeps w (recordStalled projection stalled o w).2 := by
  induction stalled generalizing o w with
  | nil => exact ⟨h, hframe.refl w⟩
  | cons s stalled ih =>
    rw [List.forall_mem_cons] at hstalled
    obtain ⟨hfirst, hkeeps⟩ := recordFailure_spec hframe h hstalled.1 projection s.error w
    obtain ⟨hrest, hkeeps'⟩ := ih hfirst hstalled.2 _
    exact ⟨hrest, hframe.trans hkeeps hkeeps'⟩

theorem settle_spec (hframe : Frame keeps) (h : o.Queues P) (projection : String)
    {progress : Progress} (hstalled : ∀ s ∈ progress.stalled, P s.envelope) (w : ω) :
    (o.settle projection progress w).1.2.Queues P ∧ keeps w (o.settle projection progress w).2 :=
  recordStalled_spec (o := (o.signal projection progress.applied).2) hframe h projection hstalled w

theorem failed_settle {progress : Progress} (h : progress.stalled = []) (projection : String)
    (w : ω) : (o.settle projection progress w).1.2.failed = o.failed ∧
      (o.settle projection progress w).2 = w := by
  simp only [settle, h]
  exact ⟨rfl, rfl⟩

theorem settle_none (projection : String) (w : ω) :
    o.settle projection .none w = (([], o), w) := rfl

end IdentityLedger.Outbox
