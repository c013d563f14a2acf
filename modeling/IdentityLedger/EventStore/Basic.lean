import IdentityLedger.Event.Stored

/-!
# Event stores

An event store keeps one stream per aggregate and the order in which all events
were committed. An append names the version it expects the stream to have; the
whole batch is stored, or nothing is.
-/
namespace IdentityLedger

/-- What an append expects of the stream it extends. -/
inductive ExpectedVersion where
  | any
  | exact (version : Nat)
  deriving DecidableEq

namespace ExpectedVersion

def admits : ExpectedVersion → Nat → Bool
  | any, _ => true
  | exact version, actual => version == actual

def text : ExpectedVersion → String
  | any => "Any"
  | exact version => "Exact(" ++ toString version ++ ")"

end ExpectedVersion

inductive EventStoreError where
  | concurrency (reason : String)
  | aggregateTypeMismatch (reason : String)
  | invalidAppend (reason : String)
  | storage (reason : String)
  deriving DecidableEq

namespace EventStoreError

def message : EventStoreError → String
  | concurrency reason => "optimistic concurrency check failed: " ++ reason
  | aggregateTypeMismatch reason => "aggregate type mismatch: " ++ reason
  | invalidAppend reason => "invalid append: " ++ reason
  | storage reason => "storage failure: " ++ reason

def isConcurrency : EventStoreError → Bool
  | concurrency _ => true
  | _ => false

end EventStoreError

/-- The operations of an event store that is kept in a state `ω`. -/
structure EventStore (ω : Type) where
  append : AggregateId → ExpectedVersion → List NewEvent →
    StateM ω (Except EventStoreError (List StoredEvent))
  /-- A stream in ascending order; an unknown one is empty. -/
  loadStream : AggregateId → StateM ω (Except EventStoreError (List StoredEvent))
  loadAll : StateM ω (Except EventStoreError (List StoredEvent))

/-- What is wrong with an event of a batch for `target` whose first event has `type`. -/
def NewEvent.objection? (event : NewEvent) (target : AggregateId) (type : String) (index : Nat) :
    Option EventStoreError :=
  if event.aggregateId ≠ target then
    some (.invalidAppend ("event at index " ++ toString index ++ " targets " ++
      event.aggregateId.text ++ ", batch is for " ++ target.text))
  else if event.aggregateType ≠ type then
    some (.aggregateTypeMismatch
      ("batch contains multiple aggregate_types (index " ++ toString index ++ ")"))
  else none

/-- The first objection to the events from `index` on. -/
def firstObjection? (target : AggregateId) (type : String) : Nat → List NewEvent →
    Option EventStoreError
  | _, [] => none
  | index, event :: events =>
    match event.objection? target type index with
    | some error => some error
    | none => firstObjection? target type (index + 1) events

/-- A batch is sound if all its events are for the target and of one aggregate type. -/
def batchError? (target : AggregateId) : List NewEvent → Option EventStoreError
  | [] => none
  | first :: events => firstObjection? target first.aggregateType 0 (first :: events)

end IdentityLedger
