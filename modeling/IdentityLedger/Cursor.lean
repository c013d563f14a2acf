import IdentityLedger.Cell
import IdentityLedger.Identifier
import IdentityLedger.Table

/-!
# Cursors

A cursor is the number of the last event a projection has applied of one stream. It
makes delivery exactly-once on top of a transport that may repeat messages.
-/
namespace IdentityLedger

/-- Where projections keep their cursors. The operations have no way to report a
failure: a failed read shows no cursor, a failed write is lost. -/
structure CursorStore (ω : Type) where
  get : String → AggregateId → StateM ω (Option Nat)
  update : String → AggregateId → Nat → StateM ω Unit
  clear : String → StateM ω Unit

structure CursorTable where
  projections : Table String (Table AggregateId Nat)

namespace CursorTable

def empty : CursorTable := ⟨.empty⟩

def cursorsOf (t : CursorTable) (projection : String) : Table AggregateId Nat :=
  (t.projections.get? projection).getD .empty

def get? (t : CursorTable) (projection : String) (id : AggregateId) : Option Nat :=
  (t.cursorsOf projection).get? id

def update (t : CursorTable) (projection : String) (id : AggregateId) (number : Nat) : CursorTable :=
  ⟨t.projections.insert projection ((t.cursorsOf projection).insert id number)⟩

def clear (t : CursorTable) (projection : String) : CursorTable := ⟨t.projections.erase projection⟩

@[simp] theorem get?_empty (projection : String) (id : AggregateId) :
    empty.get? projection id = none := rfl

theorem get?_update (t : CursorTable) (projection other : String) (id otherId : AggregateId)
    (number : Nat) :
    (t.update projection id number).get? other otherId =
      if other = projection ∧ otherId = id then some number else t.get? other otherId := by
  by_cases h : other = projection
  · subst h
    by_cases hi : otherId = id <;>
      simp [get?, update, cursorsOf, Table.get?_insert, hi]
  · simp [get?, update, cursorsOf, Table.get?_insert, h]

theorem get?_clear (t : CursorTable) (projection other : String) (id : AggregateId) :
    (t.clear projection).get? other id = if other = projection then none else t.get? other id := by
  by_cases h : other = projection <;> simp [get?, clear, cursorsOf, Table.get?_erase, h]

/-- The cursor store that a table in a larger state is. -/
def store {ω : Type} (cell : Cell ω CursorTable) : CursorStore ω where
  get projection id := cell.read fun t => t.get? projection id
  update projection id number := cell.update fun t => t.update projection id number
  clear projection := cell.update fun t => t.clear projection

end CursorTable

end IdentityLedger
