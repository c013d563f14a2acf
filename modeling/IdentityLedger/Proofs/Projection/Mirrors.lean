import IdentityLedger.Proofs.Projection.Signals

/-!
# What an outbox has under one name

Of an outbox that many projections share, another one has exactly what is under one name. This
stays so as long as whatever is queued or published under the name goes into both, and the
rest into the first one alone.
-/
namespace IdentityLedger.Outbox
variable {ω : Type} [Journal ω] {name other : String} {bus : Bus ProjectionUpdated} {o a : Outbox}

/-- Since the bus was a certain one, the second outbox has queued and published what the first
one has under a name, and nothing else. -/
structure Mirrors (name : String) (bus : Bus ProjectionUpdated) (o a : Outbox) : Prop where
  failed : o.failed.filter (fun f => f.projection = name) = a.failed
  updates : ∃ sent : List ProjectionUpdated, o.updates = sent.foldl Bus.publish bus ∧
    a.updates = (sent.filter fun update => update.projection = name).foldl Bus.publish bus

theorem amend_filter {change : FailedUpdate → FailedUpdate}
    (hchange : ∀ f, (change f).projection = f.projection) (eventId : Uuid)
    (failures : List FailedUpdate) :
    (amend name eventId change failures).filter (fun f => f.projection = name) =
      amend name eventId change (failures.filter fun f => f.projection = name) := by
  induction failures with
  | nil => rfl
  | cons f failures ih =>
    rw [amend]
    by_cases hfor : f.isFor name eventId = true
    · have hname : f.projection = name := (of_decide_eq_true hfor).1
      rw [if_pos hfor, List.filter_cons_of_pos (by simpa [hchange] using hname),
        List.filter_cons_of_pos (by simpa using hname), amend, if_pos hfor]
    · rw [if_neg hfor]
      by_cases hname : f.projection = name
      · rw [List.filter_cons_of_pos (by simpa using hname),
          List.filter_cons_of_pos (by simpa using hname), ih, amend, if_neg hfor]
      · rw [List.filter_cons_of_neg (by simpa using hname),
          List.filter_cons_of_neg (by simpa using hname), ih]

theorem amend_filter_of_ne (hname : name ≠ other) {change : FailedUpdate → FailedUpdate}
    (hchange : ∀ f, (change f).projection = f.projection) (eventId : Uuid)
    (failures : List FailedUpdate) :
    (amend other eventId change failures).filter (fun f => f.projection = name) =
      failures.filter fun f => f.projection = name := by
  induction failures with
  | nil => rfl
  | cons f failures ih =>
    rw [amend]
    by_cases hfor : f.isFor other eventId = true
    · have hother : ¬f.projection = name :=
        fun heq => hname (heq.symm.trans (of_decide_eq_true hfor).1)
      rw [if_pos hfor, List.filter_cons_of_neg (by simpa [hchange] using hother),
        List.filter_cons_of_neg (by simpa using hother)]
    · rw [if_neg hfor, List.filter_cons, List.filter_cons, ih]

namespace Mirrors

theorem start (name : String) (bus : Bus ProjectionUpdated) : Mirrors name bus ⟨[], bus⟩ ⟨[], bus⟩ :=
  ⟨rfl, [], rfl, rfl⟩

theorem queued?_eq (h : o.Mirrors name bus a) (eventId : Uuid) :
    a.queued? name eventId = o.queued? name eventId := by
  rw [queued?, queued?, ← h.failed, List.find?_filter]
  congr 1
  funext f
  simp only [FailedUpdate.isFor]
  by_cases hname : f.projection = name <;> simp [hname]

theorem enqueue (h : o.Mirrors name bus a) {failure : FailedUpdate}
    (hname : failure.projection = name) {change : FailedUpdate → FailedUpdate}
    (hchange : ∀ f, (change f).projection = f.projection) :
    (o.enqueue failure change).Mirrors name bus (a.enqueue failure change) where
  failed := by
    rw [Outbox.enqueue, Outbox.enqueue, hname, h.queued?_eq]
    dsimp only
    cases o.queued? name failure.envelope.eventId with
    | some existing => exact (amend_filter hchange _ _).trans (congrArg _ h.failed)
    | none =>
      dsimp only
      rw [List.filter_append, h.failed, List.filter_cons_of_pos (by simpa using hname),
        List.filter_nil]
  updates := h.updates

theorem enqueue_of_ne (h : o.Mirrors name bus a) {failure : FailedUpdate}
    (hname : name ≠ failure.projection) {change : FailedUpdate → FailedUpdate}
    (hchange : ∀ f, (change f).projection = f.projection) :
    (o.enqueue failure change).Mirrors name bus a where
  failed := by
    rw [Outbox.enqueue, ← h.failed]
    dsimp only
    cases o.queued? failure.projection failure.envelope.eventId with
    | some existing => exact amend_filter_of_ne hname hchange _ _
    | none =>
      dsimp only
      rw [List.filter_append, List.filter_cons_of_neg (by simpa using hname.symm), List.filter_nil,
        List.append_nil]
  updates := h.updates

theorem recordFailure (h : o.Mirrors name bus a) (e : Envelope Json) (error : ProjectionError)
    (w v : ω) : (o.recordFailure name e error w).1.Mirrors name bus (a.recordFailure name e error v).1 := by
  rw [recordFailure_eq, recordFailure_eq]
  exact h.enqueue rfl fun _ => rfl

theorem recordFailure_of_ne (h : o.Mirrors name bus a) (hname : name ≠ other) (e : Envelope Json)
    (error : ProjectionError) (w : ω) : (o.recordFailure other e error w).1.Mirrors name bus a := by
  rw [recordFailure_eq]
  exact h.enqueue_of_ne hname fun _ => rfl

theorem recordStalled (h : o.Mirrors name bus a) (stalled : List StalledEnvelope) (w v : ω) :
    (Outbox.recordStalled name stalled o w).1.Mirrors name bus
      (Outbox.recordStalled name stalled a v).1 := by
  induction stalled generalizing o a w v with
  | nil => exact h
  | cons s stalled ih => exact ih (h.recordFailure s.envelope s.error w v) _ _

theorem recordStalled_of_ne (h : o.Mirrors name bus a) (hname : name ≠ other)
    (stalled : List StalledEnvelope) (w : ω) :
    (Outbox.recordStalled other stalled o w).1.Mirrors name bus a := by
  induction stalled generalizing o w with
  | nil => exact h
  | cons s stalled ih => exact ih (h.recordFailure_of_ne hname s.envelope s.error w) _

theorem settle (h : o.Mirrors name bus a) (progress : Progress) (w v : ω) :
    (o.settle name progress w).1.2.Mirrors name bus (a.settle name progress v).1.2 := by
  have hsignal : (o.signal name progress.applied).2.Mirrors name bus
      (a.signal name progress.applied).2 := by
    obtain ⟨sent, ho, ha⟩ := h.updates
    have hall : (signalsOf name progress.applied).filter (fun update => update.projection = name) =
        signalsOf name progress.applied := by
      rw [List.filter_eq_self, signalsOf, List.forall_mem_map]
      exact fun _ _ => decide_eq_true rfl
    refine ⟨h.failed, sent ++ signalsOf name progress.applied, ?_, ?_⟩
    · rw [List.foldl_append, ← ho]
      rfl
    · rw [List.filter_append, List.foldl_append, ← ha, hall]
      rfl
  exact hsignal.recordStalled progress.stalled w v

theorem settle_of_ne (h : o.Mirrors name bus a) (hname : name ≠ other) (progress : Progress)
    (w : ω) : (o.settle other progress w).1.2.Mirrors name bus a := by
  have hsignal : (o.signal other progress.applied).2.Mirrors name bus a := by
    obtain ⟨sent, ho, ha⟩ := h.updates
    have hnone : (signalsOf other progress.applied).filter
        (fun update => update.projection = name) = [] := by
      rw [List.filter_eq_nil_iff, signalsOf, List.forall_mem_map]
      exact fun _ _ heq => hname (of_decide_eq_true heq).symm
    refine ⟨h.failed, sent ++ signalsOf other progress.applied, ?_, ?_⟩
    · rw [List.foldl_append, ← ho]
      rfl
    · rw [List.filter_append, hnone, List.append_nil, ha]
  exact hsignal.recordStalled_of_ne hname progress.stalled w

theorem requeue (h : o.Mirrors name bus a) {failure : FailedUpdate}
    (hname : failure.projection = name) (error : ProjectionError) (w v : ω) :
    (o.requeue failure error w).1.Mirrors name bus (a.requeue failure error v).1 := by
  rw [requeue_eq, requeue_eq]
  refine h.enqueue ?_ fun _ => rfl
  exact hname

theorem requeue_of_ne (h : o.Mirrors name bus a) {failure : FailedUpdate}
    (hname : name ≠ failure.projection) (error : ProjectionError) (w : ω) :
    (o.requeue failure error w).1.Mirrors name bus a := by
  rw [requeue_eq]
  refine h.enqueue_of_ne ?_ fun _ => rfl
  exact hname

end Mirrors

end IdentityLedger.Outbox
