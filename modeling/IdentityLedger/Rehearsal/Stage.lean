import IdentityLedger.Engine.Memory
import IdentityLedger.Rehearsal.FaultyRows
import IdentityLedger.Rehearsal.Recorder
import IdentityLedger.Rehearsal.ScriptedStore

/-!
# The stage

A stage is a memory with the means to rehearse failures: a row store with faults, a
scripted event store, and recorders.
-/
namespace IdentityLedger.Rehearsal

structure Stage where
  memory : Memory
  faults : RowFaults
  script : Script
  recordings : Recordings

namespace Stage

def empty : Stage := ⟨.empty, .none, .empty, .empty⟩

instance : Journal Stage := ⟨fun record s => { s with memory := Journal.note record s.memory }⟩

instance : IdSupply Stage := ⟨fun s =>
  let (id, memory) := IdSupply.fresh s.memory
  (id, { s with memory })⟩

def ofMemory {α : Type} (cell : Cell Memory α) : Cell Stage α :=
  ⟨fun s => cell.get s.memory, fun a s => { s with memory := cell.set a s.memory }⟩

def faultCell : Cell Stage RowFaults := ⟨Stage.faults, fun faults s => { s with faults }⟩

def scriptCell : Cell Stage Script := ⟨Stage.script, fun script s => { s with script }⟩

def recordingCell : Cell Stage Recordings :=
  ⟨Stage.recordings, fun recordings s => { s with recordings }⟩

def log : EventStore Stage := EventLog.store (ofMemory Memory.eventCell)

def bareRows : RowStore Stage := RowTable.store (ofMemory Memory.rowCell)

def rows : RowStore Stage := faultyRows faultCell bareRows

def cursors : CursorStore Stage := CursorTable.store (ofMemory Memory.cursorCell)

def store : EventStore Stage := scriptedStore scriptCell log

def bus : Cell Stage (Bus (Envelope Json)) := ofMemory Memory.busCell

/-- The journal since it was last taken, oldest record first. -/
def takeJournal : StateM Stage (List JournalRecord) := fun s =>
  (s.memory.journal.reverse, { s with memory := { s.memory with journal := [] } })

end Stage

end IdentityLedger.Rehearsal
