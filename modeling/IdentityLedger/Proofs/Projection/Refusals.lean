import IdentityLedger.Proofs.Projection.Lockstep
import IdentityLedger.Proofs.Projection.Submission

/-!
# What a projection refuses

A ledger beside the state, with an entry for each envelope that a projection has refused. A
runner hands back whatever its projection refuses, and nothing else, as long as envelopes are
numbered from 1: what a pass hands back is what it has added to the ledger.
-/
namespace IdentityLedger
variable {ω : Type}

/-- A ledger of refusals: which projection has refused which event. -/
abbrev Ledger (ω : Type) := ω → List (String × Uuid)

/-- The entries for some envelopes under the name of a projection. -/
def entriesOf (projection : String) (es : List (Envelope Json)) : List (String × Uuid) :=
  es.map fun e => (projection, e.eventId)

def refusal {ε α : Type} (projection : String) (e : Envelope Json) :
    Except ε α → List (String × Uuid)
  | .error _ => entriesOf projection [e]
  | .ok _ => []

/-- A ledger has gained the entries for what was handed back. -/
structure Ledger.Books (ledger : Ledger ω) (projection : String) (w : ω)
    (handed : List (Envelope Json)) (w' : ω) : Prop where
  entries : ledger w' = ledger w ++ entriesOf projection handed
  numbered : ∀ e ∈ handed, 0 < e.sequenceNumber

namespace Ledger.Books
variable {ledger : Ledger ω} {projection : String} {w w' w'' : ω}
variable {handed more : List (Envelope Json)}

theorem nothing (h : ledger w' = ledger w) : ledger.Books projection w [] w' :=
  ⟨h.trans (List.append_nil _).symm, fun _ hmem => absurd hmem List.not_mem_nil⟩

theorem trans (h : ledger.Books projection w handed w') (h' : ledger.Books projection w' more w'') :
    ledger.Books projection w (handed ++ more) w'' where
  entries := by
    rw [h'.entries, h.entries, List.append_assoc, entriesOf, entriesOf, entriesOf, List.map_append]
  numbered e hmem := (List.mem_append.mp hmem).elim (h.numbered e) (h'.numbered e)

end Ledger.Books

namespace Runner
variable [Journal ω] {ledger : Ledger ω} {r : Runner ω} {e : Envelope Json}

/-- A ledger gains an entry whenever the projection refuses an envelope, and never else. -/
structure Audited (ledger : Ledger ω) (r : Runner ω) : Prop where
  note : ∀ record w, ledger (Journal.note record w) = ledger w
  get : ∀ id w, ledger (r.cursors.get r.name id w).2 = ledger w
  update : ∀ id number w, ledger (r.cursors.update r.name id number w).2 = ledger w
  receive : ∀ e w, ledger (r.projection.receive e w).2 =
    ledger w ++ refusal r.name e (r.projection.receive e w).1

namespace Audited

theorem withBacklog (h : r.Audited ledger) (backlog : Backlog) :
    (r.withBacklog backlog).Audited ledger := ⟨h.note, h.get, h.update, h.receive⟩

theorem of_withBacklog {r' : Runner ω} {backlog : Backlog} (h : r.Audited ledger)
    (hsame : r' = r.withBacklog backlog) : r'.Audited ledger := hsame ▸ h.withBacklog backlog

theorem frame (h : r.Audited ledger) : Frame fun a b : ω => ledger b = ledger a where
  refl _ := rfl
  trans hab hbc := hbc.trans hab
  note := h.note

theorem cursor (h : r.Audited ledger) (id : AggregateId) (w : ω) :
    ledger (r.cursor id w).2 = ledger w := h.get id w

theorem applyNext (h : r.Audited ledger) (e : Envelope Json) (w : ω) :
    ledger (r.applyNext e w).2 = ledger w ++ refusal r.name e (r.applyNext e w).1 := by
  rw [Runner.applyNext, bind_apply]
  by_cases hhandles : r.projection.handles e.eventType = true
  · rw [if_pos hhandles]
    have hreceive := h.receive e w
    generalize r.projection.receive e w = step at hreceive
    obtain ⟨_ | _, w'⟩ := step
    · exact hreceive
    · exact (h.update _ _ w').trans hreceive
  · rw [if_neg hhandles]
    exact (h.update _ _ w).trans (List.append_nil _).symm

theorem drainRounds (h : r.Audited ledger) (id : AggregateId) (rounds : Nat) (backlog : Backlog)
    (w : ω) : let after := r.drainRounds id rounds backlog w
    ledger.Books r.name w (after.1.1.stalled.map StalledEnvelope.envelope) after.2 := by
  induction rounds generalizing backlog w with
  | zero => exact .nothing rfl
  | succ rounds ih =>
    rw [Runner.drainRounds, bind_apply]
    have hcursor := h.cursor id w
    generalize r.cursor id w = answer at hcursor
    obtain ⟨last, w'⟩ := answer
    cases hfind : backlog.find? id (last + 1) with
    | none =>
      simp only [pure_apply]
      exact .nothing hcursor
    | some e =>
      have hnumber := (Backlog.mem_of_find? hfind).2.2
      have hnext := h.applyNext e w'
      simp only [bind_apply]
      generalize r.applyNext e w' = step at hnext
      obtain ⟨error | event, w''⟩ := step
      · refine ⟨((h.note _ w'').trans hnext).trans (congrArg (· ++ _) hcursor), fun e' hmem => ?_⟩
        rw [List.mem_singleton.mp hmem, hnumber]
        exact Nat.succ_pos last
      · have hkept : ledger w'' = ledger w := (hnext.trans (List.append_nil _)).trans hcursor
        exact (Ledger.Books.nothing hkept).trans (ih _ w'')

theorem drain (h : r.Audited ledger) (id : AggregateId) (w : ω) : let after := r.drain id w
    ledger.Books r.name w (after.1.1.stalled.map StalledEnvelope.envelope) after.2 := by
  have hrounds := h.drainRounds id (r.backlog.size + 1) r.backlog w
  exact ⟨(h.cursor id _).trans hrounds.entries, hrounds.numbered⟩

theorem drainAll (h : r.Audited ledger) (ids : List AggregateId) (w : ω) :
    let after := r.drainAll ids w
    ledger.Books r.name w (after.1.1.stalled.map StalledEnvelope.envelope) after.2 := by
  induction ids generalizing r w with
  | nil => exact .nothing rfl
  | cons id ids ih =>
    have hfirst := h.drain id w
    have hrest := ih (h.withBacklog (r.drain id w).1.2.backlog) (r.drain id w).2
    have hboth := hfirst.trans hrest
    rw [← List.map_append] at hboth
    exact hboth

/-- A submission hands back what was refused in it, be it the envelope itself or one that was
parked behind it. -/
theorem apply (h : r.Audited ledger) (he : 0 < e.sequenceNumber) (w : ω) :
    ledger.Books r.name w (handedBack e (r.apply e w).1.1) (r.apply e w).2 := by
  rw [Runner.apply, bind_apply]
  have hcursor := h.cursor e.aggregateId w
  generalize r.cursor e.aggregateId w = answer at hcursor
  obtain ⟨last, w'⟩ := answer
  dsimp only at hcursor ⊢
  rw [if_neg (Nat.ne_of_gt he)]
  split
  · exact .nothing ((h.note _ w').trans hcursor)
  split
  · exact .nothing ((h.note _ w').trans hcursor)
  rw [bind_apply]
  have hnext := h.applyNext e w'
  generalize r.applyNext e w' = step at hnext
  obtain ⟨error | event, w''⟩ := step
  · exact ⟨hnext.trans (congrArg (· ++ _) hcursor), List.forall_mem_singleton.mpr he⟩
  · have hkept : ledger w'' = ledger w := (hnext.trans (List.append_nil _)).trans hcursor
    exact (Ledger.Books.nothing hkept).trans (h.drain e.aggregateId w'')

end Audited

omit [Journal ω] in
theorem reset_runner (r : Runner ω) (w : ω) :
    (r.reset w).1.2 = r.withBacklog (r.reset w).1.2.backlog := by
  rw [reset, bind_apply]
  generalize r.projection.reset w = step
  obtain ⟨_ | _, w'⟩ := step <;> rfl

theorem replay_runner (r : Runner ω) (count : Nat) (es : List (Envelope Json)) (w : ω) :
    (r.replay count es w).1.2 = r.withBacklog (r.replay count es w).1.2.backlog := by
  induction es generalizing r count w with
  | nil => rfl
  | cons e es ih =>
    rw [replay, bind_apply]
    have happly := r.apply_runner e w
    generalize r.apply e w = step at happly
    obtain ⟨⟨error | (⟨applied, _ | ⟨s, stalled⟩⟩ | _ | _), r'⟩, w'⟩ := step
    · exact happly
    all_goals
      change r' = r.withBacklog r'.backlog at happly
      rw [happly]
    · exact ih _ _ _
    · rfl
    · exact ih _ _ _
    · exact ih _ _ _

theorem rebuild_runner (r : Runner ω) (es : List (Envelope Json)) (w : ω) :
    let after := r.rebuild es w
    after.1.2 = r.withBacklog after.1.2.backlog ∧
      ∀ count, after.1.1 = .ok count → after.1.2.backlog.envelopes = [] := by
  rw [rebuild, bind_apply]
  have hreset := r.reset_runner w
  generalize r.reset w = step at hreset
  obtain ⟨⟨_ | _, r'⟩, w'⟩ := step
  · exact ⟨hreset, nofun⟩
  simp only [bind_apply]
  have hreplay := r'.replay_runner 0 es w'
  generalize r'.replay 0 es w' = step at hreplay
  obtain ⟨⟨_ | count, r''⟩, w''⟩ := step
  all_goals
    have hrunner : r'' = r.withBacklog r''.backlog := by
      rw [show r'' = r'.withBacklog r''.backlog from hreplay,
        show r' = r.withBacklog r'.backlog from hreset]
      rfl
  · exact ⟨hrunner, nofun⟩
  dsimp only
  cases haggregates : r''.backlog.aggregates with
  | nil => exact ⟨hrunner, fun _ _ => Backlog.eq_nil_of_aggregates haggregates⟩
  | cons id ids => exact ⟨hrunner, nofun⟩

end Runner

end IdentityLedger
