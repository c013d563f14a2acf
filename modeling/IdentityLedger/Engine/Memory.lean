import IdentityLedger.Engine.Basic
import IdentityLedger.EventStore.Log

/-!
# Memories

A memory holds everything an engine needs: the event log, rows, cursors, the bus of
an asynchronous engine, the journal, and a supply of identifiers with the number of
those it has given out.
-/
namespace IdentityLedger

structure Memory where
  events : EventLog
  rows : RowTable
  cursors : CursorTable
  bus : Bus (Envelope Json)
  /-- Newest record first. -/
  journal : List JournalRecord
  ids : Nat → Uuid
  issued : Nat

namespace Memory

def empty : Memory := ⟨.empty, .empty, .empty, .new, [], .timeOrdered, 0⟩

instance : Journal Memory := ⟨fun record m => { m with journal := record :: m.journal }⟩

instance : IdSupply Memory := ⟨fun m => (m.ids m.issued, { m with issued := m.issued + 1 })⟩

def eventCell : Cell Memory EventLog := ⟨Memory.events, fun events m => { m with events }⟩

def rowCell : Cell Memory RowTable := ⟨Memory.rows, fun rows m => { m with rows }⟩

def cursorCell : Cell Memory CursorTable := ⟨Memory.cursors, fun cursors m => { m with cursors }⟩

def busCell : Cell Memory (Bus (Envelope Json)) := ⟨Memory.bus, fun bus m => { m with bus }⟩

end Memory

end IdentityLedger
