import IdentityLedger.EventStore.Publishing
import IdentityLedger.Proofs.CommandHandler.Plan

/-!
# The plan of a publishing store

To a writer a publishing store is a store like any other. Of each append that it asks for, it
carries out the append first and then one publication for each committed event, and between
any two of these others may have their turn.
-/
namespace IdentityLedger

inductive WriterRequest
  | plain (request : HandlerRequest)
  | publish (message : Envelope Json)

namespace WriterRequest

def Answer : WriterRequest → Type
  | plain request => request.Answer
  | publish _ => Except String Unit

/-- What a state with an event store and a publisher answers. -/
def answer {ω : Type} [IdSupply ω] [Journal ω] (store : EventStore ω)
    (publisher : Publisher ω (Envelope Json)) : (request : WriterRequest) → StateM ω request.Answer
  | plain request => request.answer store
  | publish message => publisher.publish message

end WriterRequest

abbrev WriterPlan (α : Type) := Plan WriterRequest.Answer α

namespace WriterPlan

def plain (request : HandlerRequest) : WriterPlan request.Answer :=
  Plan.request WriterRequest.Answer (.plain request)

def publish (message : Envelope Json) : WriterPlan (Except String Unit) :=
  Plan.request WriterRequest.Answer (.publish message)

def report (level : Level) (message : String) (fields : List (String × FieldValue)) : WriterPlan Unit :=
  plain (.note ⟨level, some message, fields⟩)

/-- Publishes committed events one by one, in order. -/
def announce (target : AggregateId) : List StoredEvent → WriterPlan Unit
  | [] => pure ()
  | event :: events => do
    match ← publish event.envelope with
    | .ok () => pure ()
    | .error reason =>
      report .warn "failed to publish committed event"
        [("aggregate_id", .text target.text), ("sequence", .number event.sequenceNumber),
          ("error", .text reason)]
    announce target events

/-- A plan in which every append that lands is announced before the plan goes on. -/
def publishing {α : Type} : HandlerPlan α → WriterPlan α
  | .done result => pure result
  | .ask (.append id expected events) next => do
    match ← plain (.append id expected events) with
    | .error error => publishing (next (.error error))
    | .ok committed => do
      announce id committed
      publishing (next (.ok committed))
  | .ask .fresh next => plain .fresh >>= fun given => publishing (next given)
  | .ask (.note record) next => plain (.note record) >>= fun given => publishing (next given)
  | .ask (.load id) next => plain (.load id) >>= fun given => publishing (next given)

section Perform
variable {ω : Type} [IdSupply ω] [Journal ω] (store : EventStore ω)
variable (publisher : Publisher ω (Envelope Json))

@[simp] theorem perform_plain (request : HandlerRequest) :
    (plain request).perform (WriterRequest.answer store publisher) = request.answer store :=
  Plan.perform_request (WriterRequest.answer store publisher) (.plain request)

@[simp] theorem perform_publish (message : Envelope Json) :
    (publish message).perform (WriterRequest.answer store publisher) = publisher.publish message :=
  Plan.perform_request (WriterRequest.answer store publisher) (.publish message)

@[simp] theorem perform_report (level : Level) (message : String)
    (fields : List (String × FieldValue)) :
    (report level message fields).perform (WriterRequest.answer store publisher) =
      Journal.report level message fields :=
  Plan.perform_request (WriterRequest.answer store publisher) (.plain (.note ⟨level, some message, fields⟩))

@[simp] theorem perform_announce (target : AggregateId) (events : List StoredEvent) :
    (announce target events).perform (WriterRequest.answer store publisher) =
      EventStore.publishAll publisher target events := by
  induction events with
  | nil => rfl
  | cons event events ih =>
    rw [announce, EventStore.publishAll, Plan.perform_bind, perform_publish]
    refine bind_congr fun given => ?_
    cases given with
    | ok => exact ih
    | error reason => simp only [Plan.perform_bind, perform_report, ih]

/-- The answer to an append, given once all that it has committed has been published. -/
def published (id : AggregateId) (expected : ExpectedVersion) (events : List NewEvent) :
    Except EventStoreError (List StoredEvent) → StateM ω (HandlerRequest.append id expected events).Answer
  | .error error => pure (.error error)
  | .ok committed => do
    EventStore.publishAll publisher id committed
    pure (.ok committed)

theorem answer_append (id : AggregateId) (expected : ExpectedVersion) (events : List NewEvent) :
    HandlerRequest.answer (store.publishing publisher) (.append id expected events) =
      store.append id expected events >>= published publisher id expected events := rfl

/-- Performed against a store and a publisher, it is the plan on the publishing store. -/
theorem perform_publishing {α : Type} (plan : HandlerPlan α) :
    (publishing plan).perform (WriterRequest.answer store publisher) =
      plan.perform (HandlerRequest.answer (store.publishing publisher)) := by
  induction plan with
  | done result => rfl
  | ask request next ih =>
    cases request with
    | append id expected events =>
      rw [publishing, Plan.perform_bind, perform_plain, Plan.perform, answer_append, bind_assoc]
      refine bind_congr fun given => ?_
      cases given with
      | error error => exact ih _
      | ok committed =>
        simp only [Plan.perform_bind, perform_announce]
        exact bind_congr fun _ => ih (.ok committed)
    | fresh | note | load =>
      rw [publishing, Plan.perform_bind, perform_plain]
      exact bind_congr fun given => ih given

end Perform

end WriterPlan

end IdentityLedger
