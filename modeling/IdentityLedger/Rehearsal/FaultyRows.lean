import IdentityLedger.ReadModel.RowStore

/-!
# A row store with faults

A row store that refuses reads, writes, or active rows while it is told to. What it
refuses has no effect.
-/
namespace IdentityLedger.Rehearsal

structure RowFaults where
  failing : Bool
  /-- Rows of active profiles are refused. -/
  rejectsActive : Bool
  failReads : Bool

def RowFaults.none : RowFaults := ⟨false, false, false⟩

variable {ω α : Type}

def refuse (reason : String) : StateM ω (Except ProjectionError α) := pure (.error (.store reason))

/-- A read, unless reads are refused. -/
def faultyRead (faults : Cell ω RowFaults) (operation : StateM ω (Except ProjectionError α)) :
    StateM ω (Except ProjectionError α) := do
  if (← faults.read RowFaults.failReads) then refuse "read refused" else operation

def faultyWrite (faults : Cell ω RowFaults) (operation : StateM ω (Except ProjectionError α)) :
    StateM ω (Except ProjectionError α) := do
  if (← faults.read RowFaults.failing) then refuse "database unavailable" else operation

def faultyRows (faults : Cell ω RowFaults) (rows : RowStore ω) : RowStore ω where
  get id := faultyRead faults (rows.get id)
  upsert id row := faultyWrite faults do
    if row.active && (← faults.read RowFaults.rejectsActive) then refuse "constraint violated"
    else rows.upsert id row
  remove id := faultyWrite faults (rows.remove id)
  list := faultyRead faults rows.list
  clear := faultyWrite faults rows.clear

end IdentityLedger.Rehearsal
