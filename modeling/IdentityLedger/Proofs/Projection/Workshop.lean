import IdentityLedger.Proofs.Projection.Accounts

/-!
# Projections side by side

A state for any number of projections that are free to fail at every call. Each keeps its
cursors in a store in memory, its own or one that it shares with others; since cursors are
kept by the name of a projection, one does not move those of another.
-/
namespace IdentityLedger

/-- A model that projections build, beside their cursor stores. -/
structure Workshop (σ : Type) where
  model : σ
  stores : Nat → CursorTable
  journal : List JournalRecord

namespace Workshop
variable {σ : Type}

def start (model : σ) : Workshop σ := ⟨model, fun _ => .empty, []⟩

instance : Journal (Workshop σ) := ⟨fun record w => { w with journal := record :: w.journal }⟩

def modelCell : Cell (Workshop σ) σ := ⟨Workshop.model, fun model w => { w with model }⟩

def cursorCell (store : Nat) : Cell (Workshop σ) CursorTable :=
  ⟨fun w => w.stores store, fun cursors w => { w with stores := Function.update w.stores store cursors }⟩

/-- The projection, whatever it does to the model and whenever it fails. -/
def projection (p : Projection σ) : Projection (Workshop σ) where
  name := p.name
  handles := p.handles
  receive e := modelCell.run (p.receive e)
  reset := modelCell.run p.reset

variable (home : String → Nat)

/-- A runner for a projection whose cursors are in the store that is given for its name, with
nothing parked. -/
def runner (p : Projection σ) : Runner (Workshop σ) :=
  .new (projection p) (CursorTable.store (cursorCell (home p.name)))

/-- What the store of a projection has for a stream. -/
def stored (name : String) (w : Workshop σ) (id : AggregateId) : Option Nat :=
  (w.stores (home name)).get? name id

def cursor (name : String) (w : Workshop σ) (id : AggregateId) : Nat := (stored home name w id).getD 0

theorem cursor_congr {name : String} {w w' : Workshop σ}
    (h : stored home name w' = stored home name w) : cursor home name w' = cursor home name w :=
  funext fun id => congrArg (Option.getD · 0) (congrFun h id)

theorem frame_cursor : Frame fun a b : Workshop σ => ∀ name, cursor home name b = cursor home name a where
  refl _ _ := rfl
  trans hab hbc name := (hbc name).trans (hab name)
  note _ _ _ := rfl

theorem stored_set {name other : String} {cursors : CursorTable} {w : Workshop σ}
    (h : ∀ id, cursors.get? other id = (w.stores (home name)).get? other id) :
    stored home other ((cursorCell (home name)).set cursors w) = stored home other w := by
  funext id
  change (Function.update w.stores (home name) cursors (home other)).get? other id = _
  by_cases hhome : home other = home name
  · rw [hhome, Function.update_self, h, ← hhome]
    rfl
  · rw [Function.update_of_ne hhome]
    rfl

theorem stored_update_of_ne {name other : String} (hother : other ≠ name) (id : AggregateId)
    (number : Nat) (w : Workshop σ) : stored home other ((cursorCell (home name)).set
      ((w.stores (home name)).update name id number) w) = stored home other w :=
  stored_set home fun other' => by
    rw [CursorTable.get?_update, if_neg fun hboth => hother hboth.1]

theorem stored_clear_of_ne {name other : String} (hother : other ≠ name) (w : Workshop σ) :
    stored home other ((cursorCell (home name)).set ((w.stores (home name)).clear name) w) =
      stored home other w :=
  stored_set home fun _ => by rw [CursorTable.get?_clear, if_neg hother]

theorem lawful (p : Projection σ) : (Observation.ofName (cursor home) p.name).Lawful (projection p)
    (CursorTable.store (cursorCell (home p.name))) where
  toTracks := Observation.tracks_of_cell _ (cursorCell (home p.name)) (fun _ _ => rfl)
    ⟨fun _ _ _ => rfl, fun hab hbc other hother => (hbc other hother).trans (hab other hother),
      fun _ _ _ _ => rfl⟩
    (fun _ _ => Function.update_self _ _ _) (fun _ _ => rfl) (fun _ _ => rfl) (fun _ _ => rfl)
    (fun id number w _ hother => cursor_congr home (stored_update_of_ne home hother id number w))
    (fun w _ hother => cursor_congr home (stored_clear_of_ne home hother w))
  receive e w := by
    simp only [projection, Cell.run_apply]
    cases (p.receive e (modelCell.get w)).1 with
    | error error => exact ⟨rfl, rfl, fun _ _ => rfl⟩
    | ok => exact ⟨rfl, trivial, fun _ _ => rfl⟩
  reset w := by
    simp only [projection, Cell.run_apply]
    cases (p.reset (modelCell.get w)).1 with
    | error error => exact ⟨rfl, rfl, fun _ _ => rfl⟩
    | ok => exact ⟨trivial, fun _ _ => rfl⟩

end Workshop

end IdentityLedger
