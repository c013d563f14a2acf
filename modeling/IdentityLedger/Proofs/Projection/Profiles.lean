import IdentityLedger.Proofs.Projection.Runner
import IdentityLedger.Proofs.ReadModel.Rows

/-!
# The profile projection over a row store

A row store whose operations work on an observed table, or fail and leave it alone.
Whatever such a store refuses, each event that the projection applies is absorbed by the
table as a whole, so that a table in step with a log stays in step with it.
-/
namespace IdentityLedger

namespace RowStore
variable {ω : Type} {rows : RowStore ω} {e : ProfileEvent}

theorem project_of_created {userId : UserId} (h : e.change = .created userId) :
    rows.project e = rows.upsert e.profileId (.created e.profileId userId e.occurredAt) := by
  obtain ⟨profileId, time, change⟩ := e
  cases h
  rfl

theorem project_of_retired (h : e.change = .retired) : rows.project e = (do
    match ← rows.remove e.profileId with
    | .error error => pure (.error error)
    | .ok _ => pure (.ok ())) := by
  obtain ⟨profileId, time, change⟩ := e
  cases h
  rfl

theorem project_of_update (hcreation : e.change.isCreation = false) (hretired : e.change ≠ .retired) :
    rows.project e = rows.change e.profileId fun row => row.change e := by
  obtain ⟨profileId, time, change⟩ := e
  cases change with
  | created => contradiction
  | retired => contradiction
  | _ => rfl

end RowStore

theorem EventLog.Lawful.handles {log : EventLog} (h : log.Lawful) {stored : StoredEvent}
    (hmem : stored ∈ log.commits) {ω : Type} (rows : RowStore ω) :
    (profileProjection rows).handles stored.envelope.eventType = true := by
  have hpos := (h.consistent.getElem?_stream hmem).1
  obtain ⟨e, hholds, _⟩ := h.place hmem (Nat.sub_add_cancel hpos).symm
  change ProfileEvent.eventTypes.contains stored.eventType = true
  rw [hholds.eventType_eq, List.contains_iff_mem]
  exact e.eventType_mem

namespace Observation
variable {ω σ : Type}

structure Moves (o : Observation ω σ) (f : σ → σ) (a b : ω) : Prop where
  cursor : o.cursor b = o.cursor a
  model : o.model b = f (o.model a)
  later : o.later a b

/-- An observation of rows: a projection of profile events absorbs them. -/
def ofRows (cursor : ω → AggregateId → Nat) (table : ω → RowTable) (later : ω → ω → Prop) :
    Observation ω RowTable where
  cursor
  model := table
  later
  effect envelope before after :=
    ∃ e, ProfileEvent.decode envelope.payload = .ok e ∧ after = before.absorb e
  vacant rows := rows = .empty

/-- Every operation of a store works on the observed rows, or fails without effect. -/
structure Serves (o : Observation ω RowTable) (rows : RowStore ω) : Prop where
  get : ∀ id w, match rows.get id w with
    | (.error _, w') => o.Still w w'
    | (.ok row, w') => row = (o.model w).get? id ∧ o.Still w w'
  upsert : ∀ id row w, match rows.upsert id row w with
    | (.error _, w') => o.Still w w'
    | (.ok (), w') => o.Moves (fun table => table.insert id row) w w'
  remove : ∀ id w, match rows.remove id w with
    | (.error _, w') => o.Still w w'
    | (.ok _, w') => o.Moves (fun table => table.erase id) w w'
  clear : ∀ w, match rows.clear w with
    | (.error _, w') => o.Still w w'
    | (.ok (), w') => o.Moves (fun _ => .empty) w w'

structure Reliable (o : Observation ω RowTable) (rows : RowStore ω) (steady : ω → Prop) : Prop where
  later : ∀ {a b}, steady a → o.later a b → steady b
  get : ∀ {w}, steady w → ∀ id error, (rows.get id w).1 ≠ .error error
  upsert : ∀ {w}, steady w → ∀ id row error, (rows.upsert id row w).1 ≠ .error error
  remove : ∀ {w}, steady w → ∀ id error, (rows.remove id w).1 ≠ .error error

variable {o : Observation ω RowTable} {rows : RowStore ω}

theorem Moves.after [Journal ω] (hframe : Frame o.later) {f : RowTable → RowTable} {a b c : ω}
    (hab : o.Still a b) (hbc : o.Moves f b c) : o.Moves f a c where
  cursor := hbc.cursor.trans hab.cursor
  model := hbc.model.trans (congrArg f hab.model)
  later := hframe.trans hab.later hbc.later

theorem Serves.change [Journal ω] (h : o.Serves rows) (hstill : Frame o.Still)
    (hframe : Frame o.later) (id : AggregateId) (f : ProfileRow → ProfileRow) (w : ω) :
    match rows.change id f w with
    | (.error _, w') => o.Still w w'
    | (.ok (), w') => ∃ row, (o.model w).get? id = some row ∧
        o.Moves (fun table => table.insert id (f row)) w w' := by
  have hget := h.get id w
  rw [RowStore.change, bind_apply]
  generalize rows.get id w = step at hget
  obtain ⟨_ | _ | row, w'⟩ := step
  · exact hget
  · exact hget.2
  · have hupsert := h.upsert id (f row) w'
    dsimp only
    generalize rows.upsert id (f row) w' = step at hupsert
    obtain ⟨_ | _, w''⟩ := step
    · exact hstill.trans hget.2 hupsert
    · exact ⟨row, hget.1.symm, hupsert.after hframe hget.2⟩

/-- One event is absorbed as a whole, or nothing happens. -/
theorem Serves.project [Journal ω] (h : o.Serves rows) (hstill : Frame o.Still)
    (hframe : Frame o.later) (e : ProfileEvent) (w : ω) :
    match rows.project e w with
    | (.error _, w') => o.Still w w'
    | (.ok (), w') => o.Moves (fun table => RowTable.absorb table e) w w' := by
  rcases e.kinds with ⟨userId, hchange⟩ | hchange | ⟨hcreation, hretired⟩
  · rw [RowStore.project_of_created hchange]
    simp only [RowTable.absorb, hchange]
    exact h.upsert e.profileId _ w
  · have hremove := h.remove e.profileId w
    rw [RowStore.project_of_retired hchange, bind_apply]
    generalize rows.remove e.profileId w = step at hremove
    obtain ⟨_ | _, w'⟩ := step
    · exact hremove
    · simp only [RowTable.absorb, hchange]
      exact hremove
  · have hchange := h.change hstill hframe e.profileId (fun row => row.change e) w
    rw [RowStore.project_of_update hcreation hretired]
    generalize rows.change e.profileId _ w = step at hchange
    obtain ⟨_ | _, w'⟩ := step
    · exact hchange
    · obtain ⟨row, hrow, hmoves⟩ := hchange
      refine ⟨hmoves.cursor, hmoves.model.trans ?_, hmoves.later⟩
      exact (RowTable.absorb_of_update hcreation hretired hrow).symm

/-- The profile projection over a store that serves the rows. -/
theorem Serves.lawful [Journal ω] {cursor : ω → AggregateId → Nat} {table : ω → RowTable}
    {later : ω → ω → Prop} {cursors : CursorStore ω}
    (h : (ofRows cursor table later).Serves rows)
    (htracks : (ofRows cursor table later).Tracks profileProjectionName cursors) :
    (ofRows cursor table later).Lawful (profileProjection rows) cursors where
  toTracks := htracks
  receive envelope w := by
    simp only [profileProjection, Projection.decoded]
    cases hdecode : ProfileEvent.decode envelope.payload with
    | error cause => exact htracks.still.refl w
    | ok e =>
      have hproject := h.project htracks.still htracks.frame e w
      dsimp only [Envelope.withPayload]
      generalize rows.project e w = step at hproject
      obtain ⟨_ | _, w'⟩ := step
      · exact hproject
      · exact ⟨hproject.cursor, ⟨e, hdecode, hproject.model⟩, hproject.later⟩
  reset w := by
    have hclear := h.clear w
    simp only [profileProjection]
    generalize rows.clear w = step at hclear
    obtain ⟨_ | _, w'⟩ := step
    · exact hclear
    · exact ⟨hclear.model, hclear.later⟩

theorem Reliable.change {steady : ω → Prop} (h : o.Reliable rows steady) (hserves : o.Serves rows)
    {w : ω} (hsteady : steady w) {id : AggregateId} (hsome : ((o.model w).get? id).isSome = true)
    (f : ProfileRow → ProfileRow) (error : ProjectionError) :
    (rows.change id f w).1 ≠ .error error := by
  have hget := hserves.get id w
  have hreliable := h.get hsteady id
  rw [RowStore.change, bind_apply]
  generalize rows.get id w = step at hget hreliable
  obtain ⟨_ | _ | row, w'⟩ := step
  · exact absurd rfl (hreliable _)
  · rw [← hget.1] at hsome
    contradiction
  · exact h.upsert (h.later hsteady hget.2.later) id (f row) error

/-- While the store is reliable, the next event of a stream of a lawful log is not refused:
it decodes, and an update finds its row. -/
theorem Reliable.receive {steady : ω → Prop} (h : o.Reliable rows steady) (hserves : o.Serves rows)
    {log : EventLog} (hlog : log.Lawful) {w : ω} (hsteady : steady w)
    (hshows : log.Shows (o.cursor w) (o.model w)) {stored : StoredEvent}
    (hmem : stored ∈ log.commits)
    (hnext : stored.sequenceNumber = o.cursor w stored.aggregateId + 1) (error : ProjectionError) :
    ((profileProjection rows).receive stored.envelope w).1 ≠ .error error := by
  obtain ⟨e, hholds, _, _, hadmits⟩ := hlog.place hmem hnext
  have hdecode : ProfileEvent.decode stored.envelope.payload = .ok e := hholds.decode_payload
  have hid : e.profileId = stored.aggregateId := hadmits.own.trans (hlog.fits_take _ _).id_replay
  simp only [profileProjection, Projection.decoded, hdecode]
  change (rows.project e w).1 ≠ .error error
  rcases e.kinds with ⟨userId, hchange⟩ | hchange | ⟨hcreation, hretired⟩
  · rw [RowStore.project_of_created hchange]
    exact h.upsert hsteady _ _ error
  · have hremove := h.remove hsteady e.profileId
    rw [RowStore.project_of_retired hchange, bind_apply]
    generalize rows.remove e.profileId w = step at hremove
    obtain ⟨_ | _, w'⟩ := step
    · exact absurd rfl (hremove _)
    · intro herror
      cases herror
  · have hcreated := hadmits.creation
    rw [hcreation, Bool.false_eq, Bool.not_eq_false'] at hcreated
    rw [RowStore.project_of_update hcreation hretired, hid]
    apply h.change hserves hsteady
    rw [hshows.row]
    exact Profile.isSome_row? (Profile.isSome_userId_replay rfl _) hcreated hadmits.live

end Observation

end IdentityLedger
