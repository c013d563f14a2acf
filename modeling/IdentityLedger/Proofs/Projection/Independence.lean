import IdentityLedger.Proofs.Projection.Mirrors
import IdentityLedger.Proofs.Projection.Retries
import Mathlib.Algebra.BigOperators.Group.Finset.Basic

/-!
# Projections do not interfere

The projections of a registry share a queue of failures, a bus for signals, and maybe a
cursor store. But each entry and each signal bears the name of its projection, and so does
each cursor. Next to a registry that holds one of the projections alone, and is asked to do
the same, the shared parts agree in what is under its name: what the others do leaves that
as it is, and what the projection does it does in both.
-/
namespace IdentityLedger

def ownCell (σ : Type) (name : String) : Cell (String → σ) σ :=
  ⟨fun models => models name, fun model models => Function.update models name model⟩

/-- A projection with a model of its own, which is kept under its name. -/
def Projection.own {σ : Type} (p : Projection σ) : Projection (String → σ) where
  name := p.name
  handles := p.handles
  receive e := (ownCell σ p.name).run (p.receive e)
  reset := (ownCell σ p.name).run p.reset

namespace Workshop
variable {σ : Type} (home : String → Nat)

/-- Alike for the projection of a name: in its model and in what is stored of its cursors. -/
structure Alike (name : String) (w v : Workshop (String → σ)) : Prop where
  model : w.model name = v.model name
  stored : stored home name w = stored home name v

/-- A runner for one of several projections, each with a model of its own. -/
def Owned (projections : List (Projection σ)) (r : Runner (Workshop (String → σ))) : Prop :=
  ∃ p ∈ projections, r = (runner home p.own).withBacklog r.backlog

variable {home} {projections : List (Projection σ)}

theorem Alike.symm {name : String} {w v : Workshop (String → σ)}
    (h : Alike home name w v) : Alike home name v w := ⟨h.model.symm, h.stored.symm⟩

theorem frame_alike (name : String) : Frame (Alike (σ := σ) home name) where
  refl _ := ⟨rfl, rfl⟩
  trans hab hbc := ⟨hab.model.trans hbc.model, hab.stored.trans hbc.stored⟩
  note _ _ := ⟨rfl, rfl⟩

theorem Owned.withBacklog {r : Runner (Workshop (String → σ))} (h : Owned home projections r)
    (backlog : Backlog) : Owned home projections (r.withBacklog backlog) := by
  obtain ⟨p, hp, hr⟩ := h
  refine ⟨p, hp, ?_⟩
  rw [hr]
  rfl

theorem Owned.name_mem {r : Runner (Workshop (String → σ))} (h : Owned home projections r) :
    r.name ∈ projections.map Projection.name := by
  obtain ⟨p, hp, hr⟩ := h
  rw [hr]
  exact List.mem_map_of_mem hp

theorem stored_update (name : String) (id : AggregateId) (number : Nat) (w : Workshop σ) :
    stored home name ((cursorCell (home name)).set
      ((w.stores (home name)).update name id number) w) =
        Function.update (stored home name w) id (some number) := by
  funext other
  change (Function.update w.stores (home name) _ (home name)).get? name other = _
  rw [Function.update_self, CursorTable.get?_update, Function.update_apply]
  by_cases hother : other = id
  · rw [if_pos ⟨rfl, hother⟩, if_pos hother]
  · rw [if_neg fun h => hother h.2, if_neg hother]
    rfl

/-- Each runner is a function of its own model and its own cursors. -/
theorem Owned.lockstep {r : Runner (Workshop (String → σ))} (h : Owned home projections r) :
    r.Lockstep (Alike home r.name) := by
  obtain ⟨p, _, hr⟩ := h
  rw [hr]
  suffices hown : (runner home p.own).Lockstep (Alike home p.name) from hown.withBacklog _
  refine ⟨?_, ?_, ?_, ?_⟩
  · exact fun record w v h => ⟨h.model, h.stored⟩
  · exact fun id w v h => ⟨congrFun h.stored id, h⟩
  · refine fun id number w v h => ⟨rfl, h.model, ?_⟩
    exact (stored_update p.name id number w).trans
      (h.stored ▸ (stored_update p.name id number v).symm)
  · intro e w v h
    have hmodel : w.model p.name = v.model p.name := h.model
    refine ⟨?_, ?_, h.stored⟩
    · change (p.receive e (w.model p.name)).1 = (p.receive e (v.model p.name)).1
      rw [hmodel]
    · change Function.update w.model p.name (p.receive e (w.model p.name)).2 p.name =
        Function.update v.model p.name (p.receive e (v.model p.name)).2 p.name
      rw [Function.update_self, Function.update_self, hmodel]

theorem Owned.stable {r : Runner (Workshop (String → σ))} (h : Owned home projections r)
    {name : String} (hname : name ≠ r.name) (v : Workshop (String → σ)) :
    r.Stable (fun _ => True) fun w => Alike home name w v := by
  obtain ⟨p, _, hr⟩ := h
  rw [hr] at hname ⊢
  change name ≠ p.name at hname
  suffices hown : (runner home p.own).Stable (fun _ => True) fun w => Alike home name w v from
    hown.withBacklog _
  refine ⟨?_, ?_, ?_⟩
  · exact fun _ _ h => ⟨h.model, h.stored⟩
  · exact fun _ _ h => h
  · intro e w _ h _
    have hmoved {w' : Workshop (String → σ)} (h' : Alike home name w' v) :
        Alike home name ((cursorCell (home p.name)).set
          ((w'.stores (home p.name)).update p.name e.aggregateId e.sequenceNumber) w') v :=
      ⟨h'.model, (stored_update_of_ne home hname _ _ w').trans h'.stored⟩
    change Alike home name ((runner home p.own).applyNext e w).2 v
    rw [Runner.applyNext, bind_apply]
    by_cases hhandles : (runner home p.own).projection.handles e.eventType = true
    · have hreceived : Alike home name ((runner home p.own).projection.receive e w).2 v := by
        refine ⟨?_, h.stored⟩
        change Function.update w.model p.name (p.receive e (w.model p.name)).2 name = v.model name
        rw [Function.update_of_ne hname]
        exact h.model
      rw [if_pos hhandles]
      generalize (runner home p.own).projection.receive e w = step at hreceived
      obtain ⟨_ | _, w'⟩ := step
      · exact hreceived
      · exact hmoved hreceived
    · rw [if_neg hhandles]
      exact hmoved h

theorem Alike.after {name : String} {w w' v v' : Workshop (String → σ)} (h : Alike home name w v)
    (hw : Alike home name w w') (hv : Alike home name v v') : Alike home name w' v' :=
  (frame_alike name).trans hw.symm ((frame_alike name).trans h hv)

theorem alike_settle {name : String} (o : Outbox) (projection : String) (progress : Progress)
    (w : Workshop (String → σ)) : Alike home name w (o.settle projection progress w).2 :=
  (Outbox.settle_spec (P := fun _ => True) (frame_alike name) (fun _ _ => trivial) projection
    (fun _ _ => trivial) w).2

theorem alike_requeue {name : String} (o : Outbox) (failure : FailedUpdate) (error : ProjectionError)
    (w : Workshop (String → σ)) : Alike home name w (o.requeue failure error w).2 :=
  (Outbox.requeue_spec (P := fun _ => True) (frame_alike name) (fun _ _ => trivial) trivial error w).2

end Workshop

open Workshop

namespace Registry
variable {σ α : Type} {home : String → Nat} {projections : List (Projection σ)} {name : String}
variable {bus : Bus ProjectionUpdated} {r : Runner (Workshop (String → σ))}
variable {runners : List (Runner (Workshop (String → σ)))} {o a : Outbox}
variable {w v : Workshop (String → σ)} {failure : FailedUpdate}

variable (home name bus) in
/-- A runner has done the same in two registries of which one mirrors the other. -/
structure Same (r : Runner (Workshop (String → σ)))
    (joint alone : (α × Runner (Workshop (String → σ)) × Outbox) × Workshop (String → σ)) :
    Prop where
  result : joint.1.1 = alone.1.1
  runner : joint.1.2.1 = alone.1.2.1
  kept : joint.1.2.1 = r.withBacklog joint.1.2.1.backlog
  outbox : joint.1.2.2.Mirrors name bus alone.1.2.2
  alike : Alike home name joint.2 alone.2

variable (home name bus) in
/-- A runner has done something that the mirroring registry does not see. -/
structure Unseen (r : Runner (Workshop (String → σ)))
    (joint : (α × Runner (Workshop (String → σ)) × Outbox) × Workshop (String → σ)) (a : Outbox)
    (v : Workshop (String → σ)) : Prop where
  kept : joint.1.2.1 = r.withBacklog joint.1.2.1.backlog
  outbox : joint.1.2.2.Mirrors name bus a
  alike : Alike home name joint.2 v

section Runner
variable (hr : Owned home projections r) (ho : o.Mirrors name bus a) (h : Alike home name w v)
include hr ho h

theorem same_feed (hname : r.name = name) (e : Envelope Json) :
    Same home name bus r (feed r e o w) (feed r e a v) := by
  subst hname
  obtain ⟨hresult, halike⟩ := hr.lockstep.apply e h
  have hkept := r.apply_runner e w
  have hname := r.name_apply e w
  simp only [feed, bind_apply]
  rw [← hresult]
  generalize (r.apply e v).2 = v' at halike ⊢
  generalize r.apply e w = step at hkept hname halike ⊢
  obtain ⟨⟨error | (progress | _ | _), r'⟩, w'⟩ := step
  · exact ⟨rfl, rfl, hkept, hname ▸ ho.recordFailure e error w' v', halike.model, halike.stored⟩
  · exact ⟨rfl, rfl, hkept, hname ▸ ho.settle progress w' v',
      halike.after (alike_settle _ _ _ _) (alike_settle _ _ _ _)⟩
  · exact ⟨rfl, rfl, hkept, ho, halike⟩
  · exact ⟨rfl, rfl, hkept, ho, halike⟩

theorem unseen_feed (hne : name ≠ r.name) (e : Envelope Json) :
    Unseen home name bus r (feed r e o w) a v := by
  have hstart : r.Remains (fun _ => True) (fun w => Alike home name w v) r w :=
    ⟨rfl, fun _ _ => trivial, h⟩
  obtain ⟨⟨hkept, _, halike⟩, _⟩ := (hr.stable hne v).apply hstart (e := e) trivial
  have hname := r.name_apply e w
  rw [feed, bind_apply]
  generalize r.apply e w = step at hkept hname halike ⊢
  obtain ⟨⟨error | (progress | _ | _), r'⟩, w'⟩ := step
  · exact ⟨hkept, ho.recordFailure_of_ne (hname ▸ hne) e error w', halike.model, halike.stored⟩
  · exact ⟨hkept, ho.settle_of_ne (hname ▸ hne) progress w',
      (frame_alike name).trans (alike_settle _ _ _ _).symm halike⟩
  · exact ⟨hkept, ho, halike⟩
  · exact ⟨hkept, ho, halike⟩

theorem same_drainOne (hname : r.name = name) :
    Same home name bus r (drainOne r o w) (drainOne r a v) := by
  subst hname
  obtain ⟨hresult, halike⟩ := hr.lockstep.drainAll r.backlog.aggregates h
  have hkept := r.drainAll_runner r.backlog.aggregates w
  have hname := r.name_drainAll r.backlog.aggregates w
  simp only [drainOne, Runner.retryParked, bind_apply]
  rw [← hresult]
  generalize (r.drainAll r.backlog.aggregates v).2 = v' at halike ⊢
  generalize r.drainAll r.backlog.aggregates w = step at hkept hname halike ⊢
  obtain ⟨⟨progress, r'⟩, w'⟩ := step
  exact ⟨rfl, rfl, hkept, hname ▸ ho.settle progress w' v',
    halike.after (alike_settle _ _ _ _) (alike_settle _ _ _ _)⟩

theorem unseen_drainOne (hne : name ≠ r.name) : Unseen home name bus r (drainOne r o w) a v := by
  have hstart : r.Remains (fun _ => True) (fun w => Alike home name w v) r w :=
    ⟨rfl, fun _ _ => trivial, h⟩
  obtain ⟨⟨hkept, _, halike⟩, _⟩ := (hr.stable hne v).drainAll hstart r.backlog.aggregates
  have hname := r.name_drainAll r.backlog.aggregates w
  simp only [drainOne, Runner.retryParked, bind_apply]
  generalize r.drainAll r.backlog.aggregates w = step at hkept hname halike ⊢
  obtain ⟨⟨progress, r'⟩, w'⟩ := step
  exact ⟨hkept, ho.settle_of_ne (hname ▸ hne) progress w',
    (frame_alike name).trans (alike_settle _ _ _ _).symm halike⟩

theorem same_retryWith (hname : r.name = name) (hfailure : failure.projection = name) :
    Same home name bus r (retryWith failure r o w) (retryWith failure r a v) := by
  subst hname
  obtain ⟨hresult, halike⟩ := hr.lockstep.apply failure.envelope h
  have hkept := r.apply_runner failure.envelope w
  simp only [retryWith, bind_apply]
  rw [← hresult]
  generalize (r.apply failure.envelope v).2 = v' at halike ⊢
  generalize r.apply failure.envelope w = step at hkept halike ⊢
  obtain ⟨⟨error | (progress | _ | _), r'⟩, w'⟩ := step
  · exact ⟨rfl, rfl, hkept, ho.requeue hfailure error w' v',
      halike.after (alike_requeue _ _ _ _) (alike_requeue _ _ _ _)⟩
  · exact ⟨rfl, rfl, hkept, hfailure ▸ ho.settle progress w' v',
      halike.after (alike_settle _ _ _ _) (alike_settle _ _ _ _)⟩
  · exact ⟨rfl, rfl, hkept, ho, halike⟩
  · exact ⟨rfl, rfl, hkept, ho, halike⟩

theorem unseen_retryWith (hne : name ≠ r.name) (hfailure : r.name = failure.projection) :
    Unseen home name bus r (retryWith failure r o w) a v := by
  have hstart : r.Remains (fun _ => True) (fun w => Alike home name w v) r w :=
    ⟨rfl, fun _ _ => trivial, h⟩
  obtain ⟨⟨hkept, _, halike⟩, _⟩ := (hr.stable hne v).apply hstart (e := failure.envelope) trivial
  have hother : name ≠ failure.projection := hfailure ▸ hne
  rw [retryWith, bind_apply]
  generalize r.apply failure.envelope w = step at hkept halike ⊢
  obtain ⟨⟨error | (progress | _ | _), r'⟩, w'⟩ := step
  · exact ⟨hkept, ho.requeue_of_ne hother error w',
      (frame_alike name).trans (alike_requeue _ _ _ _).symm halike⟩
  · exact ⟨hkept, ho.settle_of_ne hother progress w',
      (frame_alike name).trans (alike_settle _ _ _ _).symm halike⟩
  · exact ⟨hkept, ho, halike⟩
  · exact ⟨hkept, ho, halike⟩

end Runner

variable (home projections name bus) in
/-- Beside a registry there is one that has of it what is under a name. -/
structure Beside (reg : Registry (Workshop (String → σ))) (w : Workshop (String → σ))
    (alone : Registry (Workshop (String → σ))) (v : Workshop (String → σ)) : Prop where
  owned : ∀ r ∈ reg.runners, Owned home projections r
  runners : reg.runners.filter (fun r => r.name = name) = alone.runners
  outbox : reg.outbox.Mirrors name bus alone.outbox
  alike : Alike home name w v

namespace Beside

section Runners
variable {alone : List (Runner (Workshop (String → σ)))} {r' : Runner (Workshop (String → σ))}

theorem cons_self {s' : Runner (Workshop (String → σ))}
    (h : Beside home projections name bus ⟨runners, o⟩ w ⟨alone, a⟩ v)
    (hr : Owned home projections r) (hkept : r' = r.withBacklog r'.backlog) (hname : r.name = name)
    (hsame : r' = s') :
    Beside home projections name bus ⟨r' :: runners, o⟩ w ⟨s' :: alone, a⟩ v where
  owned := List.forall_mem_cons.mpr ⟨hkept ▸ hr.withBacklog _, h.owned⟩
  runners := by
    have hname' : r'.name = name := by
      rw [hkept]
      exact hname
    rw [List.filter_cons_of_pos (by simpa using hname'), ← hsame]
    exact congrArg (r' :: ·) h.runners
  outbox := h.outbox
  alike := h.alike

theorem cons_other (h : Beside home projections name bus ⟨runners, o⟩ w ⟨alone, a⟩ v)
    (hr : Owned home projections r) (hkept : r' = r.withBacklog r'.backlog) (hne : name ≠ r.name) :
    Beside home projections name bus ⟨r' :: runners, o⟩ w ⟨alone, a⟩ v where
  owned := List.forall_mem_cons.mpr ⟨hkept ▸ hr.withBacklog _, h.owned⟩
  runners := by
    have hname' : ¬r'.name = name := by
      rw [hkept]
      exact Ne.symm hne
    rw [List.filter_cons_of_neg (by simpa using hname')]
    exact h.runners
  outbox := h.outbox
  alike := h.alike

end Runners

section Steps
variable (howned : ∀ r ∈ runners, Owned home projections r) (ho : o.Mirrors name bus a)
variable (h : Alike home name w v)
include howned ho h

theorem feedAll (e : Envelope Json) :
    let joint := Registry.feedAll e runners o w
    let alone := Registry.feedAll e (runners.filter fun r => r.name = name) a v
    Beside home projections name bus ⟨joint.1.2.1, joint.1.2.2⟩ joint.2
      ⟨alone.1.2.1, alone.1.2.2⟩ alone.2 := by
  induction runners generalizing o a w v with
  | nil => exact ⟨howned, rfl, ho, h⟩
  | cons r runners ih =>
    rw [List.forall_mem_cons] at howned
    by_cases hname : r.name = name
    · have hsame := same_feed howned.1 ho h hname e
      have hrest := ih howned.2 hsame.outbox hsame.alike
      rw [List.filter_cons_of_pos (by simpa using hname)]
      exact hrest.cons_self howned.1 hsame.kept hname hsame.runner
    · have hunseen := unseen_feed howned.1 ho h (Ne.symm hname) e
      have hrest := ih howned.2 hunseen.outbox hunseen.alike
      rw [List.filter_cons_of_neg (by simpa using hname)]
      exact hrest.cons_other howned.1 hunseen.kept (Ne.symm hname)

theorem drainRunners :
    let joint := Registry.drainRunners runners o w
    let alone := Registry.drainRunners (runners.filter fun r => r.name = name) a v
    Beside home projections name bus ⟨joint.1.1, joint.1.2⟩ joint.2
      ⟨alone.1.1, alone.1.2⟩ alone.2 := by
  induction runners generalizing o a w v with
  | nil => exact ⟨howned, rfl, ho, h⟩
  | cons r runners ih =>
    rw [List.forall_mem_cons] at howned
    by_cases hname : r.name = name
    · have hsame := same_drainOne howned.1 ho h hname
      have hrest := ih howned.2 hsame.outbox hsame.alike
      rw [List.filter_cons_of_pos (by simpa using hname)]
      exact hrest.cons_self howned.1 hsame.kept hname hsame.runner
    · have hunseen := unseen_drainOne howned.1 ho h (Ne.symm hname)
      have hrest := ih howned.2 hunseen.outbox hunseen.alike
      rw [List.filter_cons_of_neg (by simpa using hname)]
      exact hrest.cons_other howned.1 hunseen.kept (Ne.symm hname)

theorem retryOne (hfailure : failure.projection = name) :
    let joint := Registry.retryOne failure runners o w
    let alone := Registry.retryOne failure (runners.filter fun r => r.name = name) a v
    joint.1.1 = alone.1.1 ∧ Beside home projections name bus ⟨joint.1.2.1, joint.1.2.2⟩ joint.2
      ⟨alone.1.2.1, alone.1.2.2⟩ alone.2 := by
  induction runners with
  | nil => exact ⟨rfl, howned, rfl, ho, h⟩
  | cons r runners ih =>
    rw [List.forall_mem_cons] at howned
    by_cases hname : r.name = name
    · have hsame := same_retryWith howned.1 ho h hname hfailure
      have hrest : Beside home projections name bus ⟨runners, (retryWith failure r o w).1.2.2⟩
          (retryWith failure r o w).2 ⟨runners.filter fun r => r.name = name,
            (retryWith failure r a v).1.2.2⟩ (retryWith failure r a v).2 :=
        ⟨howned.2, rfl, hsame.outbox, hsame.alike⟩
      rw [List.filter_cons_of_pos (by simpa using hname), retryOne_cons (hname.trans hfailure.symm),
        retryOne_cons (hname.trans hfailure.symm)]
      exact ⟨hsame.result, hrest.cons_self howned.1 hsame.kept hname hsame.runner⟩
    · obtain ⟨hresult, hrest⟩ := ih howned.2
      rw [List.filter_cons_of_neg (by simpa using hname), Registry.retryOne,
        if_neg fun heq => hname (heq.trans hfailure)]
      exact ⟨hresult, hrest.cons_other howned.1 rfl (Ne.symm hname)⟩

/-- A failure under another name is retried in one of them, and the other one does not see it. -/
theorem retryOne_of_ne (hfailure : name ≠ failure.projection) :
    let joint := Registry.retryOne failure runners o w
    Beside home projections name bus ⟨joint.1.2.1, joint.1.2.2⟩ joint.2
      ⟨runners.filter fun r => r.name = name, a⟩ v := by
  induction runners with
  | nil => exact ⟨howned, rfl, ho, h⟩
  | cons r runners ih =>
    rw [List.forall_mem_cons] at howned
    by_cases hother : r.name = failure.projection
    · have hne : name ≠ r.name := hother ▸ hfailure
      have hunseen := unseen_retryWith howned.1 ho h hne hother
      have hrest : Beside home projections name bus ⟨runners, (retryWith failure r o w).1.2.2⟩
          (retryWith failure r o w).2 ⟨runners.filter fun r => r.name = name, a⟩ v :=
        ⟨howned.2, rfl, hunseen.outbox, hunseen.alike⟩
      rw [List.filter_cons_of_neg (by simpa using Ne.symm hne), retryOne_cons hother]
      exact hrest.cons_other howned.1 hunseen.kept hne
    · have hrest := ih howned.2
      rw [Registry.retryOne, if_neg hother]
      by_cases hname : r.name = name
      · rw [List.filter_cons_of_pos (by simpa using hname)]
        exact hrest.cons_self howned.1 rfl hname rfl
      · rw [List.filter_cons_of_neg (by simpa using hname)]
        exact hrest.cons_other howned.1 rfl (Ne.symm hname)

end Steps

section Retries
variable {alone : List (Runner (Workshop (String → σ)))}

theorem fate_eq (h : Beside home projections name bus ⟨runners, o⟩ w ⟨alone, a⟩ v)
    (hfailure : failure.projection = name) : fate failure runners o w = fate failure alone a v := by
  obtain rfl : alone = runners.filter fun r => r.name = name := h.runners.symm
  have hmem : failure.projection ∈ runners.map Runner.name ↔
      failure.projection ∈ (runners.filter fun r => r.name = name).map Runner.name := by
    simp only [List.mem_map, List.mem_filter, decide_eq_true_eq]
    constructor
    · rintro ⟨r, hr, hname⟩
      exact ⟨r, ⟨hr, hname.trans hfailure⟩, hname⟩
    · rintro ⟨r, ⟨hr, _⟩, hname⟩
      exact ⟨r, hr, hname⟩
  have hqueued := h.outbox.queued?_eq failure.envelope.eventId
  rw [← hfailure] at hqueued
  simp only [fate, (retryOne h.owned h.outbox h.alike hfailure).1, hmem]
  rw [hqueued]

theorem retryEach (h : Beside home projections name bus ⟨runners, o⟩ w ⟨alone, a⟩ v)
    (failures : List FailedUpdate) :
    let mine := failures.filter fun f => f.projection = name
    let joint := Registry.retryEach failures runners o w
    let single := Registry.retryEach mine alone a v
    (fates failures runners o w).filter (fun f => f.1.projection = name) = fates mine alone a v ∧
      Beside home projections name bus ⟨joint.1.2.1, joint.1.2.2⟩ joint.2
        ⟨single.1.2.1, single.1.2.2⟩ single.2 := by
  induction failures generalizing runners alone o w a v with
  | nil => exact ⟨rfl, h⟩
  | cons failure failures ih =>
    by_cases hname : failure.projection = name
    · have hfate := h.fate_eq hname
      obtain rfl : alone = runners.filter fun r => r.name = name := h.runners.symm
      obtain ⟨hfates, hrest⟩ := ih (retryOne h.owned h.outbox h.alike hname).2
      rw [List.filter_cons_of_pos (by simpa using hname)]
      refine ⟨?_, hrest⟩
      rw [fates, fates, List.filter_cons_of_pos (by simpa using hname), hfates, hfate]
    · obtain rfl : alone = runners.filter fun r => r.name = name := h.runners.symm
      obtain ⟨hfates, hrest⟩ := ih (retryOne_of_ne h.owned h.outbox h.alike (Ne.symm hname))
      rw [List.filter_cons_of_neg (by simpa using hname)]
      refine ⟨?_, hrest⟩
      rw [fates, List.filter_cons_of_neg (by simpa using hname), hfates]

end Retries

variable {reg alone : Registry (Workshop (String → σ))}

theorem note_left (h : Beside home projections name bus reg w alone v) (record : JournalRecord) :
    Beside home projections name bus reg (Journal.note record w) alone v :=
  ⟨h.owned, h.runners, h.outbox, h.alike.model, h.alike.stored⟩

theorem note_right (h : Beside home projections name bus reg w alone v) (record : JournalRecord) :
    Beside home projections name bus reg w alone (Journal.note record v) :=
  ⟨h.owned, h.runners, h.outbox, h.alike.model, h.alike.stored⟩

theorem dispatch (h : Beside home projections name bus reg w alone v) (e : Envelope Json) :
    Beside home projections name bus (reg.dispatch e w).1.2 (reg.dispatch e w).2
      (alone.dispatch e v).1.2 (alone.dispatch e v).2 := by
  obtain ⟨runners, a⟩ := alone
  obtain rfl : runners = reg.runners.filter fun r => r.name = name := h.runners.symm
  exact feedAll h.owned h.outbox h.alike e

theorem dispatchAll (h : Beside home projections name bus reg w alone v)
    (es : List (Envelope Json)) :
    Beside home projections name bus (reg.dispatchAll es w).1 (reg.dispatchAll es w).2
      (alone.dispatchAll es v).1 (alone.dispatchAll es v).2 := by
  induction es generalizing reg w alone v with
  | nil => exact h
  | cons e es ih => exact ih (h.dispatch e)

theorem drainParked (h : Beside home projections name bus reg w alone v) :
    Beside home projections name bus (reg.drainParked w).1 (reg.drainParked w).2
      (alone.drainParked v).1 (alone.drainParked v).2 := by
  obtain ⟨runners, a⟩ := alone
  obtain rfl : runners = reg.runners.filter fun r => r.name = name := h.runners.symm
  exact drainRunners h.owned h.outbox h.alike

theorem emptied (h : Beside home projections name bus reg w alone v) :
    Beside home projections name bus ⟨reg.runners, { reg.outbox with failed := [] }⟩ w
      ⟨alone.runners, { alone.outbox with failed := [] }⟩ v :=
  ⟨h.owned, h.runners, ⟨rfl, h.outbox.updates⟩, h.alike⟩

theorem retried_eq (h : Beside home projections name bus reg w alone v) :
    (reg.retried w).filter (fun f => f.1.projection = name) = alone.retried v := by
  have hmine : alone.failures = reg.failures.filter fun f => f.projection = name :=
    h.outbox.failed.symm
  rw [retried, retried, hmine]
  exact (h.emptied.retryEach reg.failures).1

theorem retryFailed (h : Beside home projections name bus reg w alone v) :
    Beside home projections name bus (reg.retryFailed w).1.2 (reg.retryFailed w).2
      (alone.retryFailed v).1.2 (alone.retryFailed v).2 := by
  have hmine : alone.failures = reg.failures.filter fun f => f.projection = name :=
    h.outbox.failed.symm
  have hdrained := (h.emptied.retryEach reg.failures).2.drainParked
  rw [← hmine] at hdrained
  simp only [Registry.retryFailed, bind_apply]
  split <;> split
  · exact (hdrained.note_left _).note_right _
  · exact hdrained.note_left _
  · exact hdrained.note_right _
  · exact hdrained

theorem catchUp (h : Beside home projections name bus reg w alone v)
    (answer : Except EventStoreError (List StoredEvent)) :
    let store := .replica answer
    Beside home projections name bus (reg.catchUp store w).1.2 (reg.catchUp store w).2
      (alone.catchUp store v).1.2 (alone.catchUp store v).2 := by
  cases answer with
  | error error => exact h
  | ok events => exact (((h.dispatchAll _).drainParked).note_left _).note_right _

/-- No call but a rebuild, which may stop at the first runner that fails, tells the two apart. -/
theorem answer {log : EventLog} (h : Beside home projections name bus reg w alone v)
    {call : RegistryCall} (hrebuild : ∀ read, call ≠ .rebuild read) :
    Beside home projections name bus (reg.answer log call w).1 (reg.answer log call w).2
      (alone.answer log call v).1 (alone.answer log call v).2 := by
  cases call with
  | dispatch e => exact h.dispatch e
  | retryFailed => exact h.retryFailed
  | catchUp read => exact h.catchUp _
  | rebuild read => exact absurd rfl (hrebuild read)

theorem answerAll {log : EventLog} (h : Beside home projections name bus reg w alone v)
    {calls : List RegistryCall} (hrebuild : ∀ read, .rebuild read ∉ calls) :
    Beside home projections name bus (reg.answerAll log calls w).1 (reg.answerAll log calls w).2
      (alone.answerAll log calls v).1 (alone.answerAll log calls v).2 := by
  induction calls generalizing reg w alone v with
  | nil => exact h
  | cons call calls ih =>
    exact ih (h.answer fun read hread => hrebuild read (hread ▸ List.mem_cons_self))
      fun read hread => hrebuild read (List.mem_cons_of_mem _ hread)

theorem count (h : Beside home projections name bus reg w alone v) : (alone.retryFailed v).1.1 =
    ((resolvedOf (reg.retried w)).filter fun f => f.projection = name).length := by
  rw [count_retryFailed, ← h.retried_eq, resolvedOf, resolvedOf, List.filter_map, List.length_map,
    List.length_map, List.filter_filter, List.filter_filter]
  simp only [Function.comp_apply, Bool.and_comm]

end Beside

theorem sum_length_filter {names : List String} (hnames : names.Nodup)
    {failures : List FailedUpdate} (h : ∀ f ∈ failures, f.projection ∈ names) :
    (names.map fun name => (failures.filter fun f => f.projection = name).length).sum =
      failures.length := by
  have hcount (name : String) : (failures.filter fun f => f.projection = name).length =
      (failures.map FailedUpdate.projection : Multiset String).count name := by
    rw [Multiset.coe_count, List.count_eq_length_filter, List.filter_map, List.length_map]
    congr 1
  simp only [hcount]
  rw [← List.sum_toFinset _ hnames, Multiset.sum_count_eq_card, Multiset.coe_card, List.length_map]
  intro name hname
  obtain ⟨f, hf, rfl⟩ := List.mem_map.mp (Multiset.mem_coe.mp hname)
  exact List.mem_toFinset.mpr (h f hf)

end Registry

/-- What a registry has of one of its projections is what the registry has that holds it alone:
the read model, what is stored of its cursors, its runner with what is parked, its failures in
order, with their attempts, and the signals that a subscriber has received of it. -/
structure Undisturbed {σ : Type} (home : String → Nat) (name : String) (subscription : Nat)
    (joint alone : Registry (Workshop (String → σ)) × Workshop (String → σ)) : Prop where
  model : joint.2.model name = alone.2.model name
  stored : Workshop.stored home name joint.2 = Workshop.stored home name alone.2
  runners : joint.1.runners.filter (fun r => r.name = name) = alone.1.runners
  failures : joint.1.failures.filter (fun f => f.projection = name) = alone.1.failures
  signals : (joint.1.takeUpdates subscription).1.filter (fun update => update.projection = name) =
    (alone.1.takeUpdates subscription).1

section
variable {σ : Type} {home : String → Nat} {projections : List (Projection σ)} {name : String}
variable {bus : Bus ProjectionUpdated} {reg alone : Registry (Workshop (String → σ))}
variable {w v : Workshop (String → σ)}

theorem Registry.Beside.undisturbed (h : Beside home projections name bus reg w alone v)
    {subscription : Nat} (hfound : bus.find? subscription = some ⟨subscription, [], true⟩) :
    Undisturbed home name subscription (reg, w) (alone, v) where
  model := h.alike.model
  stored := h.alike.stored
  runners := h.runners
  failures := h.outbox.failed
  signals := by
    obtain ⟨sent, hreg, halone⟩ := h.outbox.updates
    change ((reg.outbox.updates.drain subscription).1.getD []).filter _ =
      (alone.outbox.updates.drain subscription).1.getD []
    rw [hreg, halone, Bus.drain_foldl_publish _ hfound, Bus.drain_foldl_publish _ hfound]
    rfl

/-- The runners for several projections. -/
def Workshop.runners (home : String → Nat) (projections : List (Projection σ)) :
    List (Runner (Workshop (String → σ))) := projections.map fun p => runner home p.own

theorem Workshop.beside_start (name : String) (bus : Bus ProjectionUpdated)
    (w : Workshop (String → σ)) :
    Registry.Beside home projections name bus ⟨runners home projections, ⟨[], bus⟩⟩ w
      ⟨(runners home projections).filter fun r => r.name = name, ⟨[], bus⟩⟩ w where
  owned r hmem := by
    obtain ⟨p, hp, rfl⟩ := List.mem_map.mp hmem
    exact ⟨p, hp, rfl⟩
  runners := rfl
  outbox := .start name bus
  alike := ⟨rfl, rfl⟩

theorem Workshop.filter_runners (hnames : (projections.map Projection.name).Nodup)
    {p : Projection σ} (hp : p ∈ projections) :
    (runners home projections).filter (fun r => r.name = p.name) = runners home [p] := by
  rw [runners, List.filter_map]
  exact congrArg (List.map fun p => runner home p.own) (filter_key_eq hnames hp)

end

/-- Projections of different names with read models of their own do not interfere, whether or
not they share cursor stores, and whenever each of them fails. After every run of dispatches,
retries and catch-ups a registry has of each projection what it would have if it held that
one alone, and a retry of its failures resolves as many as all of these would together. -/
theorem answerAll_independent {σ : Type} (home : String → Nat) (projections : List (Projection σ))
    (hnames : (projections.map Projection.name).Nodup) (log : EventLog)
    (bus : Bus ProjectionUpdated) (hbus : ∀ s ∈ bus.subscriptions, s.number < bus.issued)
    (calls : List RegistryCall) (hrebuild : ∀ read, .rebuild read ∉ calls) (w : Workshop (String → σ)) :
    let attach (projections : List (Projection σ)) : Nat × Registry (Workshop (String → σ)) :=
      Registry.subscribeUpdates ⟨runners home projections, ⟨[], bus⟩⟩
    let run (projections : List (Projection σ)) := (attach projections).2.answerAll log calls w
    let joint := run projections
    (∀ p ∈ projections, Undisturbed home p.name (attach projections).1 joint (run [p])) ∧
      (joint.1.retryFailed joint.2).1.1 =
        (projections.map fun p => ((run [p]).1.retryFailed (run [p]).2).1.1).sum := by
  intro attach run joint
  let rest (name : String) := Registry.answerAll log
    ⟨(runners home projections).filter fun r => r.name = name,
      ⟨[], bus.subscribe.2⟩⟩ calls w
  have hstart (name : String) : Registry.Beside home projections name bus.subscribe.2 joint.1
      joint.2 (rest name).1 (rest name).2 :=
    (Workshop.beside_start name bus.subscribe.2 w).answerAll hrebuild
  have hbeside : ∀ p ∈ projections, Registry.Beside home projections p.name bus.subscribe.2 joint.1
      joint.2 (run [p]).1 (run [p]).2 := by
    intro p hp
    have hp' := hstart p.name
    simp only [rest, Workshop.filter_runners hnames hp] at hp'
    exact hp'
  refine ⟨fun p hp => (hbeside p hp).undisturbed (Bus.find?_subscribe hbus), ?_⟩
  have hresolved : ∀ f ∈ Registry.resolvedOf (joint.1.retried joint.2),
      f.projection ∈ projections.map Projection.name := by
    intro f hf
    obtain ⟨r, hr, hname⟩ := List.mem_map.mp (Registry.mem_names_of_resolved hf)
    exact hname ▸ ((hstart r.name).owned r hr).name_mem
  rw [Registry.count_retryFailed, ← Registry.sum_length_filter hnames hresolved, List.map_map]
  exact congrArg List.sum (List.map_congr_left fun p hp => (hbeside p hp).count.symm)

/-- Two projections share a cursor store, and each refuses the first envelope that it could
apply. -/
theorem answerAll_independent_mintedLog :
    let projections := [flakyProjection "first", flakyProjection "second"]
    let bus : Bus ProjectionUpdated := .new
    let calls := mintedLog.envelopes.reverse.map .dispatch ++ [.retryFailed, .catchUp (.ok 1)]
    (projections.map Projection.name).Nodup ∧ (∀ s ∈ bus.subscriptions, s.number < bus.issued) ∧
      (∀ read, .rebuild read ∉ calls) ∧
      let home : String → Nat := fun _ => 0
      let w : Workshop (String → Nat) := .start fun _ => 0
      let attach (projections : List (Projection Nat)) : Nat × Registry (Workshop (String → Nat)) :=
        Registry.subscribeUpdates ⟨runners home projections, ⟨[], bus⟩⟩
      let run (projections : List (Projection Nat)) :=
        (attach projections).2.answerAll mintedLog calls w
      let joint := run projections
      (∀ p ∈ projections, Undisturbed home p.name (attach projections).1 joint (run [p])) ∧
        (joint.1.retryFailed joint.2).1.1 =
          (projections.map fun p => ((run [p]).1.retryFailed (run [p]).2).1.1).sum := by
  intro projections bus calls
  have hnames : (projections.map Projection.name).Nodup := by decide
  have hbus : ∀ s ∈ bus.subscriptions, s.number < bus.issued :=
    fun _ hmem => absurd hmem List.not_mem_nil
  have hrebuild : ∀ read, .rebuild read ∉ calls := by
    intro read
    simp [calls]
  exact ⟨hnames, hbus, hrebuild, answerAll_independent (fun _ => 0) projections hnames mintedLog bus
    hbus calls hrebuild (.start fun _ => 0)⟩

end IdentityLedger
