import IdentityLedger.Proofs.Projection.Delivery

/-!
# What becomes of an envelope

A runner that is given an envelope of a gapless log moves it, and what it has parked, from
one place to another: behind the cursor, among what is parked, or back into the hands of
the caller. There is no other place, so nothing is lost on the way.
-/
namespace IdentityLedger

def ApplyOutcome.stalled : ApplyOutcome → List StalledEnvelope
  | applied progress => progress.stalled
  | _ => []

/-- What a runner returns of an envelope: the envelope itself if it was refused, or what
stalled behind it. -/
def Runner.handedBack (e : Envelope Json) :
    Except ProjectionError ApplyOutcome → List (Envelope Json)
  | .error _ => [e]
  | .ok outcome => outcome.stalled.map StalledEnvelope.envelope

namespace Observation
variable {ω σ : Type} {o : Observation ω σ} {p : Projection ω} {backlog : Backlog}
variable {id : AggregateId} {a b : ω} {stalled : List StalledEnvelope} {e : Envelope Json}

theorem Stalls.of_place {log : List (Envelope Json)} (hlog : Gapless log)
    (hparked : ∀ e ∈ backlog.envelopes, e ∈ log) (h : o.Stalls p backlog id a b stalled)
    (hmem : e ∈ backlog.envelopes) (hid : e.aggregateId = id)
    (hnumber : e.sequenceNumber = o.cursor b id + 1) : e ∈ stalled.map StalledEnvelope.envelope := by
  cases h with
  | none absent =>
    rw [Backlog.find?, List.find?_eq_none] at absent
    exact absurd (Backlog.isAt_iff.mpr ⟨hid, hnumber⟩) (absent e hmem)
  | one error found =>
    obtain ⟨hmem', hid', hnumber'⟩ := Backlog.mem_of_find? found
    have heq := hlog.eq_of_place (hparked _ hmem') (hparked e hmem) (hid.trans hid'.symm)
      (hnumber.trans hnumber'.symm)
    exact heq ▸ List.mem_cons_self

end Observation

namespace Runner
variable {ω σ : Type} {o : Observation ω σ} {r r' : Runner ω} {e : Envelope Json} {w w' : ω}
variable {handed log : List (Envelope Json)}

/-- An envelope is behind the cursor, parked, or kept by the caller. -/
def Placed (o : Observation ω σ) (kept : Envelope Json → Prop) (r : Runner ω) (w : ω)
    (e : Envelope Json) : Prop :=
  e.sequenceNumber ≤ o.cursor w e.aggregateId ∨ e ∈ r.backlog.envelopes ∨ kept e

/-- A submission loses nothing: the envelope, and whatever was parked, is behind the cursor
afterwards, parked, or handed back. -/
structure Conserves (o : Observation ω σ) (r : Runner ω) (e : Envelope Json) (w : ω)
    (handed : List (Envelope Json)) (r' : Runner ω) (w' : ω) : Prop where
  runner : r' = r.withBacklog r'.backlog
  later : o.later w w'
  cursor_le : ∀ id, o.cursor w id ≤ o.cursor w' id
  parked : ∀ e' ∈ r'.backlog.envelopes, e' = e ∨ e' ∈ r.backlog.envelopes
  returned : ∀ e' ∈ handed, (e' = e ∨ e' ∈ r.backlog.envelopes) ∧
    e'.sequenceNumber ≤ o.cursor w' e'.aggregateId + 1
  placed : ∀ e', e' = e ∨ e' ∈ r.backlog.envelopes → r'.Placed o (· ∈ handed) w' e'

theorem Conserves.of_still (still : o.Still w w')
    (hplace : e.sequenceNumber ≤ o.cursor w e.aggregateId ∨ e ∈ handed)
    (hhanded : ∀ e' ∈ handed, e' = e ∧ e.sequenceNumber ≤ o.cursor w e.aggregateId + 1) :
    r.Conserves o e w handed r w' where
  runner := rfl
  later := still.later
  cursor_le id := Nat.le_of_eq (congrFun still.cursor id).symm
  parked _ hmem := .inr hmem
  returned e' hmem := by
    obtain ⟨rfl, hle⟩ := hhanded e' hmem
    rw [still.cursor]
    exact ⟨.inl rfl, hle⟩
  placed e' hold := by
    rw [Placed, still.cursor]
    rcases hold with rfl | hmem
    · exact hplace.imp_right .inr
    · exact .inr (.inl hmem)

theorem Conserves.keeps_placed {kept kept' : Envelope Json → Prop}
    (h : r.Conserves o e w handed r' w') (hkept : ∀ e', kept e' → e' = e ∨ kept' e')
    (hhanded : ∀ e' ∈ handed, kept' e') {e' : Envelope Json}
    (hold : e' = e ∨ r.Placed o kept w e') : r'.Placed o kept' w' e' := by
  have hmoved (hold : e' = e ∨ e' ∈ r.backlog.envelopes) : r'.Placed o kept' w' e' :=
    (h.placed e' hold).imp_right fun hplace => hplace.imp_right (hhanded e')
  rcases hold with heq | hbehind | hparked | hold
  · exact hmoved (.inl heq)
  · exact .inl (Nat.le_trans hbehind (h.cursor_le _))
  · exact hmoved (.inr hparked)
  · rcases hkept e' hold with heq | hkept
    · exact hmoved (.inl heq)
    · exact .inr (.inr hkept)

variable [Journal ω]

theorem conserves_apply (h : o.Lawful r.projection r.cursors) (hlog : Gapless log)
    (hparked : ∀ e' ∈ r.backlog.envelopes, e' ∈ log) (hmem : e ∈ log) (w : ω) :
    r.Conserves o e w (handedBack e (r.apply e w).1.1) (r.apply e w).1.2 (r.apply e w).2 := by
  have hcases := apply_cases h e w
  generalize r.apply e w = step at hcases ⊢
  cases hcases with
  | unnumbered hzero =>
    refine .of_still (h.still.refl w) (.inr List.mem_cons_self) fun e' hmem' => ?_
    exact ⟨List.mem_singleton.mp hmem', hzero ▸ Nat.zero_le _⟩
  | duplicate hbehind still =>
    exact .of_still still (.inl hbehind) fun e' hmem' => absurd hmem' List.not_mem_nil
  | refused _ hnext _ still =>
    refine .of_still still (.inr List.mem_cons_self) fun e' hmem' => ?_
    exact ⟨List.mem_singleton.mp hmem', Nat.le_of_eq hnext⟩
  | parked hahead still =>
    refine ⟨rfl, still.later, fun id => Nat.le_of_eq (congrFun still.cursor id).symm, ?_, ?_, ?_⟩
    · exact fun e' hmem' => (hlog.mem_park hparked hmem).mp hmem'
    · exact fun e' hmem' => absurd hmem' List.not_mem_nil
    · exact fun e' hold => .inr (.inl ((hlog.mem_park hparked hmem).mpr hold))
  | @applied w' es stalled consumes _ stalls =>
    refine ⟨rfl, consumes.later h, consumes.cursor_le, ?_, ?_, ?_⟩
    · intro e' hmem'
      exact .inr (Backlog.mem_prune.mp hmem').1
    · intro e' hmem'
      obtain ⟨hold, hid, hnumber⟩ := stalls.place hmem'
      rw [hid]
      exact ⟨.inr hold, Nat.le_of_eq hnumber⟩
    · rintro e' (rfl | hold)
      · exact .inl consumes.head.2
      by_cases hpruned : e'.aggregateId = e.aggregateId ∧
          e'.sequenceNumber ≤ o.cursor w' e.aggregateId + 1
      · by_cases hnext : e'.sequenceNumber = o.cursor w' e.aggregateId + 1
        · exact .inr (.inr (stalls.of_place hlog hparked hold hpruned.1 hnext))
        · left
          rw [hpruned.1]
          exact Nat.le_of_lt_succ (Nat.lt_of_le_of_ne hpruned.2 hnext)
      · exact .inr (.inl (Backlog.mem_prune.mpr ⟨hold, hpruned⟩))

end Runner

end IdentityLedger
