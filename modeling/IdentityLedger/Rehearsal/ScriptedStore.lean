import IdentityLedger.Cell
import IdentityLedger.Repository
import IdentityLedger.Table

/-!
# A scripted event store

An event store in front of another one that follows a script: appends can fail in a
given way or find that another writer was faster, streams can be replaced by other
ones, and loads can fail after a while.
-/
namespace IdentityLedger.Rehearsal

inductive ScriptedAction where
  | proceed
  | fail (error : EventStoreError)
  /-- Another writer appends these events first. If it fails, so does the append. -/
  | compete (events : List ProfileEvent)

structure Script where
  actions : List ScriptedAction
  appends : Nat
  overrides : Table AggregateId (List StoredEvent)
  /-- How many more loads succeed, if loads are to fail. -/
  loadsLeft : Option Nat

namespace Script

def empty : Script := ⟨[], 0, .empty, none⟩

def next (s : Script) : ScriptedAction × Script :=
  match s.actions with
  | [] => (.proceed, { s with appends := s.appends + 1 })
  | action :: actions => (action, { s with actions, appends := s.appends + 1 })

def admitLoad (s : Script) : Bool × Script :=
  match s.loadsLeft with
  | none => (true, s)
  | some 0 => (false, s)
  | some (left + 1) => (true, { s with loadsLeft := some left })

end Script

variable {ω : Type}

/-- The appends of the other writer, one event at a time, up to the first that fails. -/
def compete [IdSupply ω] (inner : EventStore ω) (id : AggregateId) :
    List ProfileEvent → StateM ω (Except EventStoreError Unit)
  | [] => pure (.ok ())
  | event :: events => do
    match ← inner.append id .any (← Repository.wrap id [event]) with
    | .error error => pure (.error error)
    | .ok _ => compete inner id events

def scriptedStore [IdSupply ω] (script : Cell ω Script) (inner : EventStore ω) : EventStore ω where
  append id expected events := do
    match ← script.run Script.next with
    | .proceed => inner.append id expected events
    | .fail error => pure (.error error)
    | .compete competing =>
      match ← compete inner id competing with
      | .error error => pure (.error error)
      | .ok () => inner.append id expected events
  loadStream id := do
    if (← script.run Script.admitLoad) then
      match ← script.read fun s => s.overrides.get? id with
      | some stream => pure (.ok stream)
      | none => inner.loadStream id
    else pure (.error (.storage "load refused"))
  loadAll := do
    if (← script.run Script.admitLoad) then inner.loadAll
    else pure (.error (.storage "load refused"))

end IdentityLedger.Rehearsal
