/-!
# Components of a state

A cell picks one component out of a larger state, so that a store kept in the
component can be used from the whole.
-/
namespace IdentityLedger

structure Cell (ω α : Type) where
  get : ω → α
  set : α → ω → ω

namespace Cell
variable {ω α β : Type}

def whole : Cell ω ω := ⟨id, fun w _ => w⟩

def read (cell : Cell ω α) (f : α → β) : StateM ω β := fun w => (f (cell.get w), w)

def run (cell : Cell ω α) (f : α → β × α) : StateM ω β := fun w =>
  let (result, next) := f (cell.get w)
  (result, cell.set next w)

def update (cell : Cell ω α) (f : α → α) : StateM ω Unit := fun w =>
  ((), cell.set (f (cell.get w)) w)

end Cell

end IdentityLedger
