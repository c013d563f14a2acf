/-!
# Uncommitted events

What an aggregate has decided and not yet handed to the event store, oldest first.
-/
namespace IdentityLedger

structure Uncommitted (α : Type) where
  events : List α
  deriving DecidableEq

namespace Uncommitted
variable {α : Type}

def empty : Uncommitted α := ⟨[]⟩

def push (buffer : Uncommitted α) (event : α) : Uncommitted α := ⟨buffer.events ++ [event]⟩

def size (buffer : Uncommitted α) : Nat := buffer.events.length

def isEmpty (buffer : Uncommitted α) : Bool := buffer.events.isEmpty

@[simp] theorem events_empty : (empty : Uncommitted α).events = [] := rfl

@[simp] theorem events_push (buffer : Uncommitted α) (event : α) :
    (buffer.push event).events = buffer.events ++ [event] := rfl

@[simp] theorem size_push (buffer : Uncommitted α) (event : α) :
    (buffer.push event).size = buffer.size + 1 := by simp [size]

end Uncommitted

end IdentityLedger
