import IdentityLedger.Proofs.ReadModel.Rows

/-!
# Events that are absorbed again

Rows that have just absorbed an event do not change when they absorb it once more. A
profile that is created anew loses whatever its row had seen since: its row is then that
of the first event, and has to see the others again.
-/
namespace IdentityLedger

namespace Table
variable {κ ν : Type} [DecidableEq κ] {t : Table κ ν} {key : κ}

theorem get?_insert_self [LT κ] [DecidableLT κ] {value : ν} (h : t.get? key = some value) (other : κ) :
    (t.insert key value).get? other = t.get? other := by
  rw [get?_insert]
  by_cases hother : other = key
  · rw [if_pos hother, hother, h]
  · rw [if_neg hother]

theorem get?_erase_self (h : t.get? key = none) (other : κ) :
    (t.erase key).get? other = t.get? other := by
  rw [get?_erase]
  by_cases hother : other = key
  · rw [if_pos hother, hother, h]
  · rw [if_neg hother]

end Table

theorem ProfileRow.change_change (row : ProfileRow) (e : ProfileEvent) :
    (row.change e).change e = row.change e := by
  obtain ⟨profileId, time, change⟩ := e
  cases change with
  | activated verifiedAt => cases verifiedAt <;> rfl
  | _ => rfl

namespace RowTable
variable {rows : RowTable} {id : AggregateId} {history : List ProfileEvent} {e : ProfileEvent}

theorem get?_absorb_again (hfits : (Profile.blank id).Fits history)
    (hadmits : (Profile.load id history).Admits e)
    (hrow : rows.get? id = (Profile.load id (history ++ [e])).row?) (other : AggregateId) :
    (rows.absorb e).get? other = rows.get? other := by
  have hid : e.profileId = id := hadmits.own.trans hfits.id_replay
  have hload : Profile.load id (history ++ [e]) = (Profile.load id history).apply e :=
    Profile.replay_append _ _ _
  have huser : (Profile.load id history).userId.isSome = (Profile.load id history).isCreated :=
    Profile.isSome_userId_replay rfl history
  have hcreated := hadmits.creation
  rw [hload] at hrow
  subst hid
  rcases e.kinds with ⟨userId, hchange⟩ | hchange | ⟨hcreation, hretired⟩
  · rw [hchange, ProfileChange.isCreation, Bool.true_eq, Bool.not_eq_true'] at hcreated
    rw [Profile.eq_nil_of_not_isCreated hfits hcreated] at hrow
    rw [absorb_of_created hchange]
    exact Table.get?_insert_self (hrow.trans (Profile.row?_apply_created rfl hchange)) other
  · rw [absorb_of_retired hchange]
    exact Table.get?_erase_self (hrow.trans (Profile.row?_apply_retired hchange)) other
  · rw [hcreation, Bool.false_eq, Bool.not_eq_false'] at hcreated
    obtain ⟨row, hsome⟩ := Option.isSome_iff_exists.mp
      (Profile.isSome_row? huser hcreated hadmits.live)
    rw [Profile.row?_apply hadmits.live hcreation hretired, hsome] at hrow
    have hchanged : rows.get? e.profileId = some (row.change e) := hrow
    rw [absorb_of_update hcreation hretired hchanged, ProfileRow.change_change]
    exact Table.get?_insert_self hchanged other

end RowTable

namespace EventLog
variable {log : EventLog} {cursor : AggregateId → Nat} {rows : RowTable} {stored : StoredEvent}
variable {e : ProfileEvent}

theorem Shows.absorb_last (hlog : log.Lawful) (h : log.Shows cursor rows)
    (hmem : stored ∈ log.commits) (hlast : stored.sequenceNumber = cursor stored.aggregateId)
    (hdecode : ProfileEvent.decode stored.payload = .ok e) : log.Shows cursor (rows.absorb e) where
  bound := h.bound
  row id := by
    have hpos := (hlog.consistent.getElem?_stream hmem).1
    obtain ⟨place, hplace⟩ := Nat.exists_eq_add_one_of_ne_zero (Nat.ne_of_gt hpos)
    obtain ⟨_, htake, hadmits⟩ := hlog.decodes hmem hplace hdecode
    rw [RowTable.get?_absorb_again (hlog.fits_take _ _) hadmits _ id, h.row]
    rw [h.row, rowAt, ← hlast, hplace, htake]
  ordered := RowTable.absorb_ordered h.ordered e

/-- The first event of a stream starts its row anew, whatever the row has seen. -/
theorem Shows.absorb_first (hlog : log.Lawful) (h : log.Shows cursor rows)
    (hmem : stored ∈ log.commits) (hfirst : stored.sequenceNumber = 1)
    (hdecode : ProfileEvent.decode stored.payload = .ok e) :
    log.Shows (Function.update cursor stored.aggregateId 1) (rows.absorb e) := by
  obtain ⟨hlt, htake, hadmits⟩ := hlog.decodes hmem hfirst hdecode
  have hid : e.profileId = stored.aggregateId := hadmits.own
  obtain ⟨userId, hchange⟩ : ∃ userId, e.change = .created userId := by
    have hcreation : e.change.isCreation = true := hadmits.creation
    cases hchange : e.change with
    | created userId => exact ⟨userId, rfl⟩
    | _ => rw [hchange] at hcreation; contradiction
  have hrow : log.rowAt stored.aggregateId 1 = some (.created e.profileId userId e.occurredAt) := by
    rw [rowAt, htake]
    exact Profile.row?_apply_created rfl hchange
  rw [RowTable.absorb_of_created hchange]
  refine h.move hlt (fun other => ?_) (h.ordered.insert _ _)
  rw [Table.get?_insert, hrow, hid]

/-- Rows can absorb the next event of a stream, and the last and the first one again. -/
theorem Shows.absorb_near (hlog : log.Lawful) (h : log.Shows cursor rows)
    (hmem : stored ∈ log.commits)
    (hnear : stored.sequenceNumber = cursor stored.aggregateId + 1 ∨
      stored.sequenceNumber = cursor stored.aggregateId ∨ stored.sequenceNumber = 1)
    (hdecode : ProfileEvent.decode stored.payload = .ok e) :
    log.Shows (Function.update cursor stored.aggregateId stored.sequenceNumber) (rows.absorb e) := by
  rcases hnear with hnext | hlast | hfirst
  · exact h.absorb hlog hmem hnext hdecode
  · rw [hlast, Function.update_eq_self]
    exact h.absorb_last hlog hmem hlast hdecode
  · rw [hfirst]
    exact h.absorb_first hlog hmem hfirst hdecode

theorem Shows.isSome_near (hlog : log.Lawful) (h : log.Shows cursor rows)
    (hmem : stored ∈ log.commits)
    (hnear : stored.sequenceNumber = cursor stored.aggregateId + 1 ∨
      stored.sequenceNumber = cursor stored.aggregateId ∨ stored.sequenceNumber = 1)
    (hdecode : ProfileEvent.decode stored.payload = .ok e) (hcreation : e.change.isCreation = false)
    (hretired : e.change ≠ .retired) : (rows.get? e.profileId).isSome = true := by
  have hpos := (hlog.consistent.getElem?_stream hmem).1
  obtain ⟨place, hplace⟩ := Nat.exists_eq_add_one_of_ne_zero (Nat.ne_of_gt hpos)
  obtain ⟨_, htake, hadmits⟩ := hlog.decodes hmem hplace hdecode
  have hid : e.profileId = stored.aggregateId := hadmits.own.trans (hlog.fits_take _ _).id_replay
  have hcreated := hadmits.creation
  rw [hcreation, Bool.false_eq, Bool.not_eq_false'] at hcreated
  have hbefore : (log.rowAt stored.aggregateId place).isSome = true :=
    Profile.isSome_row? (Profile.isSome_userId_replay rfl _) hcreated hadmits.live
  have hafter : log.rowAt stored.aggregateId (place + 1) =
      (log.rowAt stored.aggregateId place).map fun row => row.change e := by
    rw [rowAt, htake]
    exact (congrArg Profile.row? (Profile.replay_append _ _ _)).trans
      (Profile.row?_apply hadmits.live hcreation hretired)
  rw [hid, h.row]
  rcases hnear with hnext | hlast | hfirst
  · rw [← Nat.succ.inj (hplace.symm.trans hnext)]
    exact hbefore
  · rw [← hlast, hplace, hafter, Option.isSome_map]
    exact hbefore
  · -- nothing but a creation comes first
    rw [hfirst] at hplace
    rw [← Nat.succ.inj hplace] at hcreated
    contradiction

end EventLog

end IdentityLedger
