import IdentityLedger.Cell
import IdentityLedger.EventStore.Basic
import IdentityLedger.Table

/-!
# The event log in memory

The log keeps each stream by its aggregate and, beside the streams, all events in
commit order. An append changes both or neither.
-/
namespace IdentityLedger

structure EventLog where
  streams : Table AggregateId (List StoredEvent)
  commits : List StoredEvent

namespace EventLog

def empty : EventLog := ⟨.empty, []⟩

def stream (log : EventLog) (id : AggregateId) : List StoredEvent := (log.streams.get? id).getD []

def currentVersion (stream : List StoredEvent) : Nat :=
  (stream.getLast?.map StoredEvent.sequenceNumber).getD 0

/-- Numbers a batch from `first` on. -/
def number : Nat → List NewEvent → List StoredEvent
  | _, [] => []
  | first, event :: events => event.numbered first :: number (first + 1) events

/-- The objection to appending a sound batch of one `type` to a stream, the version first. -/
def appendError? (stream : List StoredEvent) (expected : ExpectedVersion) (type : String) :
    Option EventStoreError :=
  let current := currentVersion stream
  if !expected.admits current then
    some (.concurrency ("expected " ++ expected.text ++ ", found " ++ toString current))
  else
    match stream.head? with
    | none => none
    | some existing =>
      if existing.aggregateType ≠ type then
        some (.aggregateTypeMismatch ("stream aggregate_type is '" ++ existing.aggregateType ++
          "', attempted append with '" ++ type ++ "'"))
      else none

def extend (log : EventLog) (id : AggregateId) (committed : List StoredEvent) : EventLog where
  streams := log.streams.insert id (log.stream id ++ committed)
  commits := log.commits ++ committed

/-- Appends a batch. An empty batch is accepted whatever version it expects. -/
def append (log : EventLog) (id : AggregateId) (expected : ExpectedVersion)
    (events : List NewEvent) : Except EventStoreError (List StoredEvent) × EventLog :=
  match events with
  | [] => (.ok [], log)
  | first :: _ =>
    match batchError? id events with
    | some error => (.error error, log)
    | none =>
      let stream := log.stream id
      match appendError? stream expected first.aggregateType with
      | some error => (.error error, log)
      | none =>
        let committed := number (currentVersion stream + 1) events
        (.ok committed, log.extend id committed)

/-- The event store that a log in a larger state is. -/
def store {ω : Type} (cell : Cell ω EventLog) : EventStore ω where
  append id expected events := cell.run fun log => log.append id expected events
  loadStream id := cell.read fun log => .ok (log.stream id)
  loadAll := cell.read fun log => .ok log.commits

end EventLog

end IdentityLedger
