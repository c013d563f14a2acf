import IdentityLedger.Engine.Basic
import IdentityLedger.Proofs.CommandHandler.Plan

/-!
# The plan of a synchronous engine

What an engine does that feeds its registry before a command returns, as the requests it
makes of a state and a registry: those of its handler, a dispatch for each committed event,
and for each activation a load, a look at the rows, and the commands by which the siblings
step down. Between any two of them others may have their turn; performed without a break, the
plan is the engine.
-/
namespace IdentityLedger

inductive EngineRequest
  | plain (request : HandlerRequest)
  | dispatch (e : Envelope Json)
  /-- For the rows, among which an activated profile has its siblings. -/
  | list (profileId : AggregateId)
  | tell (activation : Activation) (result : Except DispatchError CommandOutcome)

def Engine.tell {ω : Type} [Journal ω] (activation : Activation) :
    Except DispatchError CommandOutcome → StateM ω Unit
  | .ok outcome =>
    Journal.report .info "profile superseded" [("profile_id", .text outcome.aggregateId.text),
      ("superseded_by", .text activation.profileId.text)]
  | .error (.validation reason) =>
    Journal.report .debug "sibling no longer active"
      [("superseded_by", .text activation.profileId.text), ("reason", .text reason)]
  | .error error =>
    Journal.report .warn "failed to supersede sibling profile"
      [("superseded_by", .text activation.profileId.text), ("err", .text error.message)]

theorem Engine.tell_frame {ω : Type} [Journal ω] {keeps : ω → ω → Prop} (h : Frame keeps)
    (activation : Activation) (result : Except DispatchError CommandOutcome) (w : ω) :
    keeps w (tell activation result w).2 := by
  unfold tell
  split <;> exact h.report (h.refl w) _ _ _

namespace EngineRequest

def Answer : EngineRequest → Type
  | plain request => request.Answer
  | dispatch _ => List ProjectionUpdated
  | list _ => Except ProjectionError (List ProfileRow)
  | tell _ _ => Unit

def answer {ω : Type} [IdSupply ω] [Journal ω] (store : EventStore ω) (rows : RowStore ω) :
    (request : EngineRequest) → StateM (ω × Registry ω) request.Answer
  | plain request, (w, reg) =>
    let (given, w) := request.answer store w
    (given, w, reg)
  | dispatch e, (w, reg) =>
    let ((updates, reg), w) := reg.dispatch e w
    (updates, w, reg)
  | list _, (w, reg) =>
    let (given, w) := rows.list w
    (given, w, reg)
  | tell activation result, (w, reg) => ((), (Engine.tell activation result w).2, reg)

end EngineRequest

abbrev EnginePlan (α : Type) := Plan EngineRequest.Answer α

namespace EnginePlan
variable {α : Type}

def lift : HandlerPlan α → EnginePlan α
  | .done result => .done result
  | .ask request next => .ask (.plain request) fun given => lift (next given)

def dispatch (e : Envelope Json) : EnginePlan (List ProjectionUpdated) :=
  Plan.request EngineRequest.Answer (.dispatch e)

def list (profileId : AggregateId) : EnginePlan (Except ProjectionError (List ProfileRow)) :=
  Plan.request EngineRequest.Answer (.list profileId)

def tell (activation : Activation) (result : Except DispatchError CommandOutcome) : EnginePlan Unit :=
  Plan.request EngineRequest.Answer (.tell activation result)

def report (level : Level) (message : String) (fields : List (String × FieldValue)) : EnginePlan Unit :=
  lift (HandlerPlan.report level message fields)

def dispatchAll : List StoredEvent → EnginePlan Unit
  | [] => pure ()
  | stored :: events => do
    let _ ← dispatch stored.envelope
    dispatchAll events

variable (retry : RetryPolicy)

def handleAlone (command : ProfileCommand) : EnginePlan (Except DispatchError CommandOutcome) := do
  match ← lift (HandlerPlan.handle retry command) with
  | .error error => pure (.error error)
  | .ok outcome => do
    dispatchAll outcome.committed
    pure (.ok outcome)

def supersedeEach (activation : Activation) : List ProfileCommand → EnginePlan Unit
  | [] => pure ()
  | command :: commands => do
    let result ← handleAlone retry command
    tell activation result
    supersedeEach activation commands

def supersedeListed (activation : Activation) (userId : UserId) : EnginePlan Unit := do
  match ← list activation.profileId with
  | .error error =>
    report .warn "could not list profiles; siblings left active"
      [("profile_id", .text activation.profileId.text), ("err", .text error.message)]
  | .ok rows => supersedeEach retry activation (SingleActiveProfile.react activation userId rows)

def supersedeSiblings (activation : Activation) : EnginePlan Unit := do
  match ← lift (HandlerPlan.load activation.profileId) with
  | .error error =>
    report .warn "could not load activated profile"
      [("profile_id", .text activation.profileId.text), ("err", .text error.message)]
  | .ok profile =>
    match profile.userId with
    | none => pure ()
    | some userId => supersedeListed retry activation userId

def supersedeAll : List Activation → EnginePlan Unit
  | [] => pure ()
  | activation :: activations => do
    supersedeSiblings retry activation
    supersedeAll activations

def handle (command : ProfileCommand) : EnginePlan (Except DispatchError CommandOutcome) := do
  match ← handleAlone retry command with
  | .error error => pure (.error error)
  | .ok outcome => do
    supersedeAll retry (SingleActiveProfile.activations outcome.committed)
    pure (.ok outcome)

section Perform
variable {ω : Type} [IdSupply ω] [Journal ω] (store : EventStore ω) (rows : RowStore ω)
variable (reg : Registry ω) (w : ω)

theorem perform_lift (plan : HandlerPlan α) :
    (lift plan).perform (EngineRequest.answer store rows) (w, reg) =
      ((plan.perform (HandlerRequest.answer store) w).1,
        (plan.perform (HandlerRequest.answer store) w).2, reg) := by
  induction plan generalizing w with
  | done result => rfl
  | ask request next ih => exact ih _ _

theorem perform_dispatchAll (events : List StoredEvent) :
    (dispatchAll events).perform (EngineRequest.answer store rows) (w, reg) =
      ((), (reg.dispatchAll (events.map StoredEvent.envelope) w).2,
        (reg.dispatchAll (events.map StoredEvent.envelope) w).1) := by
  induction events generalizing reg w with
  | nil => rfl
  | cons stored events ih => exact ih _ _

theorem perform_handleAlone (command : ProfileCommand) :
    (handleAlone retry command).perform (EngineRequest.answer store rows) (w, reg) =
      let step := Engine.handleAlone ⟨⟨store, retry⟩, rows, .synchronous⟩ reg command w
      (step.1.1, step.2, step.1.2) := by
  rw [handleAlone, Plan.perform_bind, bind_apply, perform_lift, HandlerPlan.perform_handle,
    Engine.handleAlone, CommandHandler.handleInto, bind_apply]
  generalize CommandHandler.handle ⟨store, retry⟩ command w = step
  obtain ⟨_ | outcome, w'⟩ := step
  · rfl
  · simp only [Plan.perform_bind, bind_apply, perform_dispatchAll]
    rfl

theorem perform_supersedeEach (activation : Activation) (commands : List ProfileCommand) :
    (supersedeEach retry activation commands).perform (EngineRequest.answer store rows) (w, reg) =
      let step := Engine.supersedeEach ⟨⟨store, retry⟩, rows, .synchronous⟩ activation reg commands w
      ((), step.2, step.1) := by
  induction commands generalizing reg w with
  | nil => rfl
  | cons command commands ih =>
    rw [supersedeEach, Engine.supersedeEach, Plan.perform_bind, bind_apply, bind_apply,
      perform_handleAlone]
    generalize Engine.handleAlone ⟨⟨store, retry⟩, rows, .synchronous⟩ reg command w = step
    obtain ⟨⟨result, reg'⟩, w'⟩ := step
    have htell : (tell activation result >>= fun _ => supersedeEach retry activation commands).perform
        (EngineRequest.answer store rows) (w', reg') =
          (supersedeEach retry activation commands).perform (EngineRequest.answer store rows)
            ((Engine.tell activation result w').2, reg') := rfl
    simp only [htell, ih]
    rcases result with error | outcome
    · cases error <;> rfl
    · rfl

theorem perform_supersedeSiblings (activation : Activation) :
    (supersedeSiblings retry activation).perform (EngineRequest.answer store rows) (w, reg) =
      let step := Engine.supersedeSiblings ⟨⟨store, retry⟩, rows, .synchronous⟩ reg activation w
      ((), step.2, step.1) := by
  rw [supersedeSiblings, Engine.supersedeSiblings, Plan.perform_bind, bind_apply, bind_apply,
    perform_lift, HandlerPlan.perform_load]
  generalize Repository.load store activation.profileId w = step
  obtain ⟨error | profile, w'⟩ := step
  · rfl
  simp only
  cases profile.userId with
  | none => rfl
  | some userId =>
    simp only [supersedeListed, Plan.perform_bind, bind_apply]
    have hlist : (list activation.profileId).perform (EngineRequest.answer store rows) (w', reg) =
      ((rows.list w').1, (rows.list w').2, reg) := rfl
    rw [hlist]
    generalize rows.list w' = listed
    obtain ⟨error | siblings, w''⟩ := listed
    · rfl
    · exact perform_supersedeEach retry store rows reg w'' activation _

theorem perform_supersedeAll (activations : List Activation) :
    (supersedeAll retry activations).perform (EngineRequest.answer store rows) (w, reg) =
      let step := Engine.supersedeAll ⟨⟨store, retry⟩, rows, .synchronous⟩ reg activations w
      ((), step.2, step.1) := by
  induction activations generalizing reg w with
  | nil => rfl
  | cons activation activations ih =>
    rw [supersedeAll, Engine.supersedeAll, Plan.perform_bind, bind_apply, bind_apply,
      perform_supersedeSiblings]
    exact ih _ _

/-- The plan is what the engine does. -/
theorem perform_handle (command : ProfileCommand) :
    (handle retry command).perform (EngineRequest.answer store rows) (w, reg) =
      let step := Engine.handle ⟨⟨store, retry⟩, rows, .synchronous⟩ reg command w
      (step.1.1, step.2, step.1.2) := by
  rw [handle, Engine.handle, Plan.perform_bind, bind_apply, bind_apply, perform_handleAlone]
  generalize Engine.handleAlone ⟨⟨store, retry⟩, rows, .synchronous⟩ reg command w = step
  obtain ⟨⟨_ | outcome, reg'⟩, w'⟩ := step
  · rfl
  · simp only [Plan.perform_bind, bind_apply, perform_supersedeAll]
    rfl

end Perform

end EnginePlan

end IdentityLedger
