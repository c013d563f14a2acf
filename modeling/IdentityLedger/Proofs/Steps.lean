import IdentityLedger.Cell
import IdentityLedger.Journal

/-!
# Steps of a state

How a run of steps is read off its parts, and relations between a state and a later
one that no report to the journal breaks.
-/
namespace IdentityLedger
variable {ω α β : Type}

theorem bind_apply (x : StateM ω α) (f : α → StateM ω β) (w : ω) :
    (x >>= f) w = f (x w).1 (x w).2 := rfl

theorem pure_apply (a : α) (w : ω) : (pure a : StateM ω α) w = (a, w) := rfl

theorem Cell.run_apply (cell : Cell ω α) (f : α → β × α) (w : ω) :
    cell.run f w = ((f (cell.get w)).1, cell.set (f (cell.get w)).2 w) := rfl

variable [Journal ω]

/-- A preorder on states that every report goes along with. -/
structure Frame (keeps : ω → ω → Prop) : Prop where
  refl : ∀ w, keeps w w
  trans : ∀ {a b c}, keeps a b → keeps b c → keeps a c
  note : ∀ record w, keeps w (Journal.note record w)

namespace Frame
variable {keeps : ω → ω → Prop}

theorem report (h : Frame keeps) {a b : ω} (hab : keeps a b) (level : Level) (message : String)
    (fields : List (String × FieldValue)) : keeps a (Journal.report level message fields b).2 :=
  h.trans hab (h.note _ b)

end Frame

end IdentityLedger
