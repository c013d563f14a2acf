import IdentityLedger.Proofs.Plan
import Mathlib.Data.List.Forall2

/-!
# Plans that take turns

Any number of plans are carried out on one state. They take turns in any order, and a turn
is a single request. What is true of a run is proved turn by turn: of the plan that has the
turn, while the others wait.
-/
namespace IdentityLedger
variable {Request : Type} {Answer : Request → Type} {ω α : Type}

def Plan.turn (answer : (request : Request) → StateM ω (Answer request)) :
    Plan Answer α → StateM ω (Plan Answer α)
  | done result => pure (done result)
  | ask request next => do pure (next (← answer request))

def Plan.isDone : Plan Answer α → Bool
  | done _ => true
  | ask _ _ => false

/-- The next request of a plan is of a kind, if there is one. -/
def Plan.asksFor (kind : Request → Bool) : Plan Answer α → Bool
  | done _ => true
  | ask request _ => kind request

/-- Plans that are carried out on one state. -/
structure Pool {Request : Type} (Answer : Request → Type) (ω α : Type) where
  state : ω
  plans : List (Plan Answer α)

namespace Pool

def turn (answer : (request : Request) → StateM ω (Answer request)) (pool : Pool Answer ω α)
    (index : Nat) : Pool Answer ω α :=
  match pool.plans[index]? with
  | none => pool
  | some plan =>
    let (plan, state) := plan.turn answer pool.state
    ⟨state, pool.plans.set index plan⟩

def run (answer : (request : Request) → StateM ω (Answer request)) (pool : Pool Answer ω α)
    (turns : List Nat) : Pool Answer ω α :=
  turns.foldl (turn answer) pool

/-- All plans have come to their results. -/
def IsDone (pool : Pool Answer ω α) : Prop := ∀ plan ∈ pool.plans, plan.isDone = true

instance (pool : Pool Answer ω α) : Decidable pool.IsDone :=
  inferInstanceAs (Decidable (∀ plan ∈ pool.plans, plan.isDone = true))

/-- Every request of a run is one that is allowed in the state in which it is made. -/
def obeys (answer : (request : Request) → StateM ω (Answer request)) (allows : ω → Request → Bool) :
    Pool Answer ω α → List Nat → Bool
  | _, [] => true
  | pool, index :: turns =>
    (pool.plans[index]?.all fun plan => plan.asksFor (allows pool.state)) &&
      obeys answer allows (pool.turn answer index) turns

variable (answer : (request : Request) → StateM ω (Answer request))

/-- What a turn does: nothing, or one of the plans has it. -/
inductive Turns (pool : Pool Answer ω α) (index : Nat) : Pool Answer ω α → Prop
  | idle (hindex : pool.plans[index]? = none) : Turns pool index pool
  | taken (before after : List (Plan Answer α)) (plan : Plan Answer α)
      (hplans : pool.plans = before ++ plan :: after) (hindex : pool.plans[index]? = some plan) :
      Turns pool index ⟨(plan.turn answer pool.state).2,
        before ++ (plan.turn answer pool.state).1 :: after⟩

theorem turn_cases (pool : Pool Answer ω α) (index : Nat) :
    Turns answer pool index (pool.turn answer index) := by
  rw [turn]
  cases hindex : pool.plans[index]? with
  | none => exact .idle hindex
  | some plan =>
    obtain ⟨hlt, hget⟩ := List.getElem?_eq_some_iff.mp hindex
    have hplans : pool.plans = pool.plans.take index ++ plan :: pool.plans.drop (index + 1) := by
      rw [← hget, List.getElem_cons_drop, List.take_append_drop]
    change Turns answer pool index ⟨(plan.turn answer pool.state).2,
      pool.plans.set index (plan.turn answer pool.state).1⟩
    rw [List.set_eq_take_append_cons_drop, if_pos hlt]
    exact .taken _ _ plan hplans hindex

/-- What holds of each plan, of its own companion among others, holds of the one whose turn
it is. -/
theorem split_of_forall₂ {β γ : Type} {R : β → γ → Prop} {bs : List β} {before after : List γ} {c : γ}
    (h : List.Forall₂ R bs (before ++ c :: after)) : ∃ first b rest, bs = first ++ b :: rest ∧
      List.Forall₂ R first before ∧ R b c ∧ List.Forall₂ R rest after := by
  have hfirst := List.forall₂_take_append bs before (c :: after) h
  obtain ⟨b, rest, hb, hrest, hdrop⟩ :=
    List.forall₂_cons_right_iff.mp (List.forall₂_drop_append bs before (c :: after) h)
  exact ⟨_, b, rest, hdrop ▸ (List.take_append_drop _ _).symm, hfirst, hb, hrest⟩

end Pool

end IdentityLedger
