import IdentityLedger.Cell
import IdentityLedger.Projection.Basic
import IdentityLedger.ReadModel.Row
import IdentityLedger.Table

/-!
# Row stores

Where the profile read model is kept. It is written only by the projection and read
by queries; every operation may fail.
-/
namespace IdentityLedger

structure RowStore (ω : Type) where
  get : AggregateId → StateM ω (Except ProjectionError (Option ProfileRow))
  upsert : AggregateId → ProfileRow → StateM ω (Except ProjectionError Unit)
  /-- Tells whether there was a row to remove. -/
  remove : AggregateId → StateM ω (Except ProjectionError Bool)
  list : StateM ω (Except ProjectionError (List ProfileRow))
  clear : StateM ω (Except ProjectionError Unit)

/-- Rows in memory, listed in ascending order of the profile's id. -/
abbrev RowTable := Table AggregateId ProfileRow

def RowTable.store {ω : Type} (cell : Cell ω RowTable) : RowStore ω where
  get id := cell.read fun rows => .ok (rows.get? id)
  upsert id row := cell.run fun rows => (.ok (), rows.insert id row)
  remove id := cell.run fun rows => (.ok (rows.get? id).isSome, rows.erase id)
  list := cell.read fun rows => .ok rows.values
  clear := cell.run fun _ => (.ok (), .empty)

end IdentityLedger
