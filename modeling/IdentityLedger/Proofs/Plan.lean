import Mathlib.Logic.Function.Basic

/-!
# Plans

A plan is a computation that gets at its surroundings only by requests, one at a time, and
goes on as each is answered. Performed against a state that answers them it is a
computation on that state; between two requests others may have their turn.
-/
namespace IdentityLedger

inductive Plan {Request : Type} (Answer : Request → Type) (α : Type) : Type
  | done (result : α)
  | ask (request : Request) (next : Answer request → Plan Answer α)

namespace Plan
variable {Request : Type} {Answer : Request → Type} {ω α β : Type}

def bind : Plan Answer α → (α → Plan Answer β) → Plan Answer β
  | done result, f => f result
  | ask request next, f => ask request fun answer => (next answer).bind f

instance : Monad (Plan Answer) where
  pure := done
  bind := bind

instance : LawfulMonad (Plan Answer) := by
  refine LawfulMonad.mk' (Plan Answer) (fun plan => ?_) (fun _ _ => rfl) fun plan f g => ?_
  · induction plan with
    | done result => rfl
    | ask request next ih => exact congrArg (ask request) (funext ih)
  · induction plan with
    | done result => rfl
    | ask request next ih => exact congrArg (ask request) (funext ih)

/-- A single request, with its answer as the result. -/
def request (Answer : Request → Type) (request : Request) : Plan Answer (Answer request) :=
  ask request done

/-- Carries a plan out where a state answers its requests. -/
def perform (answer : (request : Request) → StateM ω (Answer request)) : Plan Answer α → StateM ω α
  | done result => pure result
  | ask request next => answer request >>= fun given => (next given).perform answer

section Perform
variable (answer : (request : Request) → StateM ω (Answer request))

@[simp] theorem perform_pure (result : α) : (pure result : Plan Answer α).perform answer = pure result :=
  rfl

@[simp] theorem perform_request (r : Request) : (request Answer r).perform answer = answer r :=
  bind_pure (answer r)

@[simp] theorem perform_bind (plan : Plan Answer α) (f : α → Plan Answer β) :
    (plan >>= f).perform answer = plan.perform answer >>= fun a => (f a).perform answer := by
  induction plan with
  | done result => rfl
  | ask request next ih =>
    calc (ask request next >>= f).perform answer
        = answer request >>= fun given => (next given >>= f).perform answer := rfl
      _ = answer request >>= fun given => (next given).perform answer >>=
            fun a => (f a).perform answer := by simp only [ih]
      _ = (ask request next).perform answer >>= fun a => (f a).perform answer :=
            (bind_assoc _ _ _).symm

end Perform

section Settling
variable (touches : Request → Prop) (final : (request : Request) → Answer request → Prop)

/-- A plan that makes none of some requests, and comes to a good result. -/
def Avoids (good : α → Prop) : Plan Answer α → Prop
  | done result => good result
  | ask request next => ¬touches request ∧ ∀ given, (next given).Avoids good

/-- A plan that makes none of those requests any more once it got a final answer. -/
def Settles (good : α → Prop) : Plan Answer α → Prop
  | done _ => True
  | ask request next => ∀ given, (final request given → (next given).Avoids touches good) ∧
      (¬final request given → (next given).Settles good)

variable {touches final} {good : α → Prop} {good' : β → Prop}

theorem Avoids.bind {plan : Plan Answer α} {f : α → Plan Answer β} (h : plan.Avoids touches good)
    (hf : ∀ a, good a → (f a).Avoids touches good') : (plan >>= f).Avoids touches good' := by
  induction plan with
  | done result => exact hf result h
  | ask request next ih => exact ⟨h.1, fun given => ih given (h.2 given)⟩

theorem Settles.bind {plan : Plan Answer α} {f : α → Plan Answer β}
    (h : plan.Settles touches final good) (hnext : ∀ a, (f a).Settles touches final good')
    (hafter : ∀ a, good a → (f a).Avoids touches good') :
    (plan >>= f).Settles touches final good' := by
  induction plan with
  | done result => exact hnext result
  | ask request next ih =>
    exact fun given => ⟨fun hfinal => ((h given).1 hfinal).bind hafter,
      fun hopen => ih given ((h given).2 hopen)⟩

theorem Avoids.settles (hfinal : ∀ request given, final request given → touches request)
    {plan : Plan Answer α} (h : plan.Avoids touches good) {best : α → Prop} :
    plan.Settles touches final best := by
  induction plan with
  | done result => trivial
  | ask request next ih =>
    exact fun given => ⟨fun hgiven => absurd (hfinal request given hgiven) h.1,
      fun _ => ih given (h.2 given)⟩

end Settling

end Plan

end IdentityLedger
