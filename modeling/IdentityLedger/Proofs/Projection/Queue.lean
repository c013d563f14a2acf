import IdentityLedger.Proofs.Projection.Outbox
import Mathlib.Data.List.Nodup

/-!
# Every update is queued once

A failure is known by its projection and the id of its event. Where events have distinct
ids, recording a failure or putting one back adds its update, unless it is there, and
loses none.
-/
namespace IdentityLedger

namespace FailedUpdate

def update (f : FailedUpdate) : String × Envelope Json := (f.projection, f.envelope)

/-- What failures in a queue are told apart by. -/
def key (f : FailedUpdate) : String × Uuid := (f.projection, f.envelope.eventId)

theorem isFor_iff {f : FailedUpdate} {projection : String} {eventId : Uuid} :
    f.isFor projection eventId = true ↔ f.key = (projection, eventId) := by
  simp [isFor, key]

end FailedUpdate

namespace Outbox
variable {ω : Type} [Journal ω] {log : List (Envelope Json)}
variable {projection : String} {e : Envelope Json} {o o' : Outbox} {key : String × Uuid}
variable {failure : FailedUpdate} {change : FailedUpdate → FailedUpdate}

theorem queued?_eq_none : o.queued? key.1 key.2 = none ↔ key ∉ o.failed.map FailedUpdate.key := by
  rw [queued?, List.find?_eq_none, List.mem_map]
  constructor
  · rintro h ⟨f, hf, rfl⟩
    exact h f hf (FailedUpdate.isFor_iff.mpr rfl)
  · exact fun h f hf hfor => h ⟨f, hf, FailedUpdate.isFor_iff.mp hfor⟩

theorem nodup_enqueue (h : (o.failed.map FailedUpdate.key).Nodup)
    (hchange : ∀ f, (change f).key = f.key) :
    ((o.enqueue failure change).failed.map FailedUpdate.key).Nodup := by
  rw [enqueue]
  cases hfound : o.queued? failure.projection failure.envelope.eventId with
  | some f => exact (map_amend hchange _ _ _).symm ▸ h
  | none =>
    have habsent : failure.key ∉ o.failed.map FailedUpdate.key := queued?_eq_none.mp hfound
    dsimp only
    rw [List.map_append, List.map_singleton, ← List.concat_eq_append]
    exact h.concat habsent

/-- Updates by envelopes of a log are queued, and none of them twice. -/
structure Distinct (log : List (Envelope Json)) (o : Outbox) : Prop where
  known : o.Queues (· ∈ log)
  keys : (o.failed.map FailedUpdate.key).Nodup

/-- An envelope is queued for a projection. -/
def Holds (o : Outbox) (projection : String) (e : Envelope Json) : Prop :=
  (projection, e) ∈ o.failed.map FailedUpdate.update

/-- Envelopes are queued for a projection, besides what was queued before. -/
structure Gains (log : List (Envelope Json)) (projection : String) (es : List (Envelope Json))
    (o o' : Outbox) : Prop where
  distinct : o'.Distinct log
  holds_iff : ∀ other e, o'.Holds other e ↔ o.Holds other e ∨ other = projection ∧ e ∈ es

theorem holds_iff : o.Holds projection e ↔
    ∃ f ∈ o.failed, f.projection = projection ∧ f.envelope = e := by
  simp [Holds, FailedUpdate.update]

theorem Gains.refl (h : o.Distinct log) (projection : String) : o.Gains log projection [] o where
  distinct := h
  holds_iff _ _ := by simp

theorem Gains.trans {es es' : List (Envelope Json)} {o'' : Outbox} (h : o.Gains log projection es o')
    (h' : o'.Gains log projection es' o'') : o.Gains log projection (es ++ es') o'' where
  distinct := h'.distinct
  holds_iff other e := by
    rw [h'.holds_iff, h.holds_iff, List.mem_append, or_assoc, ← and_or_left]

theorem Distinct.holds_of_queued (hids : (log.map Envelope.eventId).Nodup) (h : o.Distinct log)
    (he : e ∈ log) {failure : FailedUpdate} (hfound : o.queued? projection e.eventId = some failure) :
    o.Holds projection e := by
  have hmem := List.mem_of_find?_eq_some hfound
  have hkey := FailedUpdate.isFor_iff.mp (List.find?_some
    (p := FailedUpdate.isFor projection e.eventId) hfound)
  rw [FailedUpdate.key, Prod.mk.injEq] at hkey
  exact holds_iff.mpr ⟨failure, hmem, hkey.1,
    List.inj_on_of_nodup_map hids (h.known failure hmem) he hkey.2⟩

theorem Distinct.enqueue (hids : (log.map Envelope.eventId).Nodup) (h : o.Distinct log)
    (failure : FailedUpdate) (he : failure.envelope ∈ log)
    (hchange : ∀ f, (change f).update = f.update) :
    o.Gains log failure.projection [failure.envelope] (o.enqueue failure change) where
  distinct.known := queues_enqueue h.known he fun f => congrArg Prod.snd (hchange f)
  distinct.keys := nodup_enqueue h.keys fun f =>
    congrArg (fun update => (update.1, update.2.eventId)) (hchange f)
  holds_iff other e' := by
    rw [Holds, Outbox.enqueue]
    cases hfound : o.queued? failure.projection failure.envelope.eventId with
    | some existing =>
      dsimp only
      rw [map_amend hchange]
      constructor
      · exact .inl
      · rintro (hold | ⟨rfl, hmem⟩)
        · exact hold
        · rw [List.mem_singleton.mp hmem]
          exact h.holds_of_queued hids he hfound
    | none =>
      dsimp only
      rw [List.map_append, List.mem_append, List.map_singleton, List.mem_singleton,
        FailedUpdate.update, Prod.mk.injEq, List.mem_singleton]
      rfl

theorem Distinct.recordFailure (hids : (log.map Envelope.eventId).Nodup) (h : o.Distinct log)
    (he : e ∈ log) (projection : String) (error : ProjectionError) (w : ω) :
    o.Gains log projection [e] (o.recordFailure projection e error w).1 := by
  rw [recordFailure_eq]
  exact h.enqueue hids ⟨projection, e, error, 1⟩ he fun _ => rfl

theorem Distinct.requeue (hids : (log.map Envelope.eventId).Nodup) (h : o.Distinct log)
    (he : failure.envelope ∈ log) (error : ProjectionError) (w : ω) :
    o.Gains log failure.projection [failure.envelope] (o.requeue failure error w).1 := by
  rw [requeue_eq]
  exact h.enqueue hids { failure with attempts := failure.attempts + 1, error } he fun _ => rfl

theorem Distinct.recordStalled (hids : (log.map Envelope.eventId).Nodup) (h : o.Distinct log)
    (projection : String) {stalled : List StalledEnvelope}
    (hstalled : ∀ s ∈ stalled, s.envelope ∈ log) (w : ω) :
    o.Gains log projection (stalled.map StalledEnvelope.envelope)
      (recordStalled projection stalled o w).1 := by
  induction stalled generalizing o w with
  | nil => exact .refl h projection
  | cons s stalled ih =>
    rw [List.forall_mem_cons] at hstalled
    have hfirst := h.recordFailure hids hstalled.1 projection s.error w
    exact hfirst.trans (ih hfirst.distinct hstalled.2 _)

theorem Distinct.settle (hids : (log.map Envelope.eventId).Nodup) (h : o.Distinct log)
    (projection : String) {progress : Progress} (hstalled : ∀ s ∈ progress.stalled, s.envelope ∈ log)
    (w : ω) : o.Gains log projection (progress.stalled.map StalledEnvelope.envelope)
      (o.settle projection progress w).1.2 := by
  have hsignal : (o.signal projection progress.applied).2.Distinct log := ⟨h.known, h.keys⟩
  obtain ⟨hdistinct, hholds⟩ := hsignal.recordStalled hids projection hstalled w
  exact ⟨hdistinct, hholds⟩

end Outbox

end IdentityLedger
