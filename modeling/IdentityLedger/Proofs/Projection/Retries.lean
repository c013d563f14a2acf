import IdentityLedger.Proofs.Projection.Lockstep
import IdentityLedger.Proofs.Projection.Queue

/-!
# Retries one by one

A registry retries each failure with the first runner of its projection. What comes of it is
said of that runner alone, and what becomes of the failures that are retried one after another
is collected in their order: a retry counts those that are resolved.
-/
namespace IdentityLedger.Registry
variable {ω : Type} [Journal ω] {failure : FailedUpdate} {r : Runner ω} {runners : List (Runner ω)}
variable {o : Outbox} {w : ω}

def drainOne (runner : Runner ω) (o : Outbox) :
    StateM ω (List ProjectionUpdated × Runner ω × Outbox) := do
  let (progress, runner) ← runner.retryParked
  let (updates, o) ← o.settle runner.name progress
  pure (updates, runner, o)

def retryWith (failure : FailedUpdate) (runner : Runner ω) (o : Outbox) :
    StateM ω (Bool × Runner ω × Outbox) := do
  match ← runner.apply failure.envelope with
  | (.ok (.applied progress), runner) =>
    let (_, o) ← o.settle failure.projection progress
    pure (true, runner, o)
  | (.ok _, runner) => pure (true, runner, o)
  | (.error error, runner) => pure (false, runner, ← o.requeue failure error)

theorem runner_retryWith (failure : FailedUpdate) (r : Runner ω) (o : Outbox) (w : ω) :
    (retryWith failure r o w).1.2.1 = (r.apply failure.envelope w).1.2 := by
  rw [retryWith, bind_apply]
  generalize r.apply failure.envelope w = step
  obtain ⟨⟨error | (progress | _ | _), r'⟩, w'⟩ := step <;> rfl

theorem retryOne_cons (hname : r.name = failure.projection) (runners : List (Runner ω)) (o : Outbox)
    (w : ω) : retryOne failure (r :: runners) o w =
      (((retryWith failure r o w).1.1, (retryWith failure r o w).1.2.1 :: runners,
        (retryWith failure r o w).1.2.2), (retryWith failure r o w).2) := by
  rw [retryOne, if_pos hname, retryWith, bind_apply, bind_apply]
  generalize r.apply failure.envelope w = step
  obtain ⟨⟨error | (progress | _ | _), r'⟩, w'⟩ := step <;> rfl

/-- What becomes of a failure that is retried. -/
inductive Fate
  | resolved
  /-- The retry has failed. The failure is queued again, or added to the same update if that has
  been queued in the meantime. -/
  | returned (merged : Bool)
  | dropped
  deriving DecidableEq

def fate (failure : FailedUpdate) (runners : List (Runner ω)) (o : Outbox) (w : ω) : Fate :=
  if (retryOne failure runners o w).1.1 then .resolved
  else if failure.projection ∈ runners.map Runner.name then
    .returned (o.queued? failure.projection failure.envelope.eventId).isSome
  else .dropped

/-- What becomes of failures that are retried one after another. -/
def fates : List FailedUpdate → List (Runner ω) → Outbox → ω → List (FailedUpdate × Fate)
  | [], _, _, _ => []
  | failure :: failures, runners, o, w =>
    let after := retryOne failure runners o w
    (failure, fate failure runners o w) :: fates failures after.1.2.1 after.1.2.2 after.2

def retried (reg : Registry ω) (w : ω) : List (FailedUpdate × Fate) :=
  fates reg.failures reg.runners { reg.outbox with failed := [] } w

def resolvedOf (retried : List (FailedUpdate × Fate)) : List FailedUpdate :=
  (retried.filter fun f => f.2 = .resolved).map Prod.fst

theorem fate_eq_resolved : fate failure runners o w = .resolved ↔
    (retryOne failure runners o w).1.1 = true := by
  rw [fate]
  split
  · exact iff_of_true rfl ‹_›
  · split <;> exact iff_of_false nofun ‹_›

/-- The first runner of its projection decides on a failure. -/
theorem fate_cons (hname : r.name = failure.projection) : fate failure (r :: runners) o w =
    if (retryWith failure r o w).1.1 then .resolved
    else .returned (o.queued? failure.projection failure.envelope.eventId).isSome := by
  have hmem : failure.projection ∈ (r :: runners).map Runner.name :=
    hname ▸ List.mem_map_of_mem List.mem_cons_self
  rw [fate, retryOne_cons hname, if_pos hmem]

theorem fate_cons_of_ne (hname : r.name ≠ failure.projection) :
    fate failure (r :: runners) o w = fate failure runners o w := by
  have hmem : failure.projection ∈ (r :: runners).map Runner.name ↔
      failure.projection ∈ runners.map Runner.name := by
    rw [List.map_cons, List.mem_cons, or_iff_right (Ne.symm hname)]
  rw [fate, fate, retryOne, if_neg hname]
  exact if_congr Iff.rfl rfl (if_congr hmem rfl rfl)

theorem length_resolvedOf_fates (failures : List FailedUpdate) (runners : List (Runner ω))
    (o : Outbox) (w : ω) :
    (resolvedOf (fates failures runners o w)).length = (retryEach failures runners o w).1.1 := by
  induction failures generalizing runners o w with
  | nil => rfl
  | cons failure failures ih =>
    rw [retryEach, bind_apply]
    change _ = (if (retryOne failure runners o w).1.1 then 1 else 0) + (retryEach failures _ _ _).1.1
    rw [← ih, resolvedOf, fates, List.filter_cons]
    by_cases hresolved : (retryOne failure runners o w).1.1 = true
    · rw [if_pos (decide_eq_true (fate_eq_resolved.mpr hresolved)), if_pos hresolved, List.map_cons,
        List.length_cons, Nat.add_comm]
      rfl
    · rw [if_neg (by simpa [fate_eq_resolved] using hresolved), if_neg hresolved, Nat.zero_add]
      rfl

theorem count_retryFailed (reg : Registry ω) (w : ω) :
    (reg.retryFailed w).1.1 = (resolvedOf (reg.retried w)).length := by
  rw [retried, length_resolvedOf_fates]
  simp only [retryFailed, bind_apply]
  split <;> rfl

theorem names_retryOne (failure : FailedUpdate) (runners : List (Runner ω)) (o : Outbox) (w : ω) :
    (retryOne failure runners o w).1.2.1.map Runner.name = runners.map Runner.name ∧
      ((retryOne failure runners o w).1.1 = true → failure.projection ∈ runners.map Runner.name) := by
  induction runners with
  | nil => exact ⟨rfl, nofun⟩
  | cons r runners ih =>
    by_cases hname : r.name = failure.projection
    · rw [retryOne_cons hname, List.map_cons, runner_retryWith, Runner.name_apply, List.map_cons, hname]
      exact ⟨rfl, fun _ => List.mem_cons_self⟩
    · rw [retryOne, if_neg hname]
      exact ⟨congrArg (r.name :: ·) ih.1, fun hresolved => List.mem_cons_of_mem _ (ih.2 hresolved)⟩

theorem mem_names_of_resolved {failures : List FailedUpdate} {f : FailedUpdate}
    (hf : f ∈ resolvedOf (fates failures runners o w)) : f.projection ∈ runners.map Runner.name := by
  induction failures generalizing runners o w with
  | nil => exact absurd hf List.not_mem_nil
  | cons failure failures ih =>
    obtain ⟨hnames, hresolved⟩ := names_retryOne failure runners o w
    obtain ⟨entry, hentry, rfl⟩ := List.mem_map.mp hf
    obtain ⟨hmem, hfate⟩ := List.mem_filter.mp hentry
    rcases List.mem_cons.mp hmem with rfl | hmem
    · exact hresolved (fate_eq_resolved.mp (of_decide_eq_true hfate))
    · exact hnames ▸ ih (List.mem_map_of_mem (List.mem_filter.mpr ⟨hmem, hfate⟩))

end IdentityLedger.Registry
