import IdentityLedger.Projection.Profiles
import IdentityLedger.Proofs.CommandHandler.Written
import IdentityLedger.Proofs.Table
import Mathlib.Data.List.Induction

/-!
# Rows of replayed profiles

The row of a profile says what its columns are, and there is none before creation and
after retirement. Rows that are brought up to date event by event are those of the
replayed profiles, as long as every event fits what happened before: no update ever
misses its row.
-/
namespace IdentityLedger

/-- An event creates its row, removes it, or changes it. -/
theorem ProfileEvent.kinds (e : ProfileEvent) : (∃ userId, e.change = .created userId) ∨
    e.change = .retired ∨ e.change.isCreation = false ∧ e.change ≠ .retired := by
  cases e.change with
  | created userId => exact .inl ⟨userId, rfl⟩
  | retired => exact .inr (.inl rfl)
  | _ => exact .inr (.inr ⟨rfl, nofun⟩)

def Profile.row? (p : Profile) : Option ProfileRow :=
  if p.retired then none
  else do
    let userId ← p.userId
    let createdAt ← p.createdAt
    pure { profileId := p.id, userId, createdAt, mintedAt := p.mintedAt, idvLevel := p.idvLevel,
           active := p.active, activatedAt := p.activatedAt, verifiedAt := p.verifiedAt,
           deactivationReason := p.deactivationReason, holds := p.holds }

/-- A row that says of a profile what the profile says of itself. -/
structure ProfileRow.Agrees (row : ProfileRow) (p : Profile) : Prop where
  profileId : row.profileId = p.id
  userId : some row.userId = p.userId
  createdAt : some row.createdAt = p.createdAt
  mintedAt : row.mintedAt = p.mintedAt
  idvLevel : row.idvLevel = p.idvLevel
  active : row.active = p.active
  activatedAt : row.activatedAt = p.activatedAt
  verifiedAt : row.verifiedAt = p.verifiedAt
  deactivationReason : row.deactivationReason = p.deactivationReason
  holds : row.holds = p.holds
  pendingReasons : row.pendingReasons = p.pendingReasons

/-- Brings rows up to date with one event. -/
def RowTable.absorb (rows : RowTable) (e : ProfileEvent) : RowTable :=
  match e.change with
  | .created userId => rows.insert e.profileId (.created e.profileId userId e.occurredAt)
  | .retired => rows.erase e.profileId
  | _ =>
    match rows.get? e.profileId with
    | none => rows
    | some row => rows.insert e.profileId (row.change e)

/-- The rows that events leave, one after another in the order of their commit. -/
def RowTable.ofCommits (commits : List StoredEvent) : RowTable :=
  (commits.filterMap StoredEvent.profileEvent?).foldl RowTable.absorb .empty

namespace Profile

theorem row?_apply {p : Profile} {e : ProfileEvent} (hlive : p.retired = false)
    (hcreation : e.change.isCreation = false) (hretired : e.change ≠ .retired) :
    (p.apply e).row? = p.row?.map fun row => row.change e := by
  obtain ⟨id, userId, createdAt, mintedAt, idvLevel, active, activatedAt, verifiedAt, reason, holds,
    retired, version, uncommitted⟩ := p
  obtain ⟨profileId, time, change⟩ := e
  subst hlive
  cases change with
  | created => contradiction
  | retired => contradiction
  | _ => cases userId <;> cases createdAt <;> rfl

theorem row?_apply_created {p : Profile} {e : ProfileEvent} {userId : UserId}
    (hblank : p = .blank p.id) (h : e.change = .created userId) :
    (p.apply e).row? = some (.created e.profileId userId e.occurredAt) := by
  obtain ⟨profileId, time, change⟩ := e
  subst h
  rw [hblank]
  rfl

theorem row?_apply_retired {p : Profile} {e : ProfileEvent} (h : e.change = .retired) :
    (p.apply e).row? = none := by
  simp [row?, apply, change, h]

theorem isSome_row? {p : Profile} (huser : p.userId.isSome = p.isCreated)
    (hcreated : p.isCreated = true) (hlive : p.retired = false) : p.row?.isSome = true := by
  obtain ⟨userId, hsome⟩ := Option.isSome_iff_exists.mp (huser.trans hcreated)
  obtain ⟨createdAt, hsome'⟩ := Option.isSome_iff_exists.mp hcreated
  simp [row?, hlive, hsome, hsome']

theorem agrees_of_row? {p : Profile} {row : ProfileRow} (h : p.row? = some row) : row.Agrees p := by
  obtain ⟨id, userId, createdAt, mintedAt, idvLevel, active, activatedAt, verifiedAt, reason, holds,
    retired, version, uncommitted⟩ := p
  cases retired with
  | true => cases h
  | false =>
    cases userId with
    | none => cases h
    | some userId =>
      cases createdAt with
      | none => cases h
      | some createdAt =>
        cases h
        constructor <;> rfl

end Profile

namespace RowTable
variable {rows : RowTable} {id : AggregateId} {history : List ProfileEvent} {e : ProfileEvent}

theorem absorb_ordered (h : Table.Ordered rows) (e : ProfileEvent) :
    Table.Ordered (rows.absorb e) := by
  unfold absorb
  split
  · exact h.insert _ _
  · exact h.erase _
  · split
    · exact h
    · exact h.insert _ _

theorem absorb_of_created {userId : UserId} (h : e.change = .created userId) :
    rows.absorb e = rows.insert e.profileId (.created e.profileId userId e.occurredAt) := by
  simp only [absorb, h]

theorem absorb_of_retired (h : e.change = .retired) : rows.absorb e = rows.erase e.profileId := by
  simp only [absorb, h]

theorem absorb_of_update (hcreation : e.change.isCreation = false) (hretired : e.change ≠ .retired)
    {row : ProfileRow} (hrow : rows.get? e.profileId = some row) :
    rows.absorb e = rows.insert e.profileId (row.change e) := by
  obtain ⟨profileId, time, change⟩ := e
  cases change with
  | created => contradiction
  | retired => contradiction
  | _ => simp only [absorb, hrow]

/-- The row of the event's profile becomes the one of the profile that has seen the event. -/
theorem get?_absorb (hfits : (Profile.blank id).Fits history)
    (hadmits : (Profile.load id history).Admits e)
    (hrow : rows.get? id = (Profile.load id history).row?) (other : AggregateId) :
    (rows.absorb e).get? other =
      if other = id then (Profile.load id (history ++ [e])).row? else rows.get? other := by
  have hid : e.profileId = id := hadmits.own.trans hfits.id_replay
  have hload : Profile.load id (history ++ [e]) = (Profile.load id history).apply e :=
    Profile.replay_append _ _ _
  have huser : (Profile.load id history).userId.isSome = (Profile.load id history).isCreated :=
    Profile.isSome_userId_replay rfl history
  have hcreated := hadmits.creation
  rw [hload]
  subst hid
  rcases e.kinds with ⟨userId, hchange⟩ | hchange | ⟨hcreation, hretired⟩
  · rw [hchange, ProfileChange.isCreation, Bool.true_eq, Bool.not_eq_true'] at hcreated
    rw [Profile.eq_nil_of_not_isCreated hfits hcreated, Profile.row?_apply_created rfl hchange,
      absorb_of_created hchange]
    exact Table.get?_insert _ _ _ _
  · rw [Profile.row?_apply_retired hchange, absorb_of_retired hchange]
    exact Table.get?_erase _ _ _
  · rw [hcreation, Bool.false_eq, Bool.not_eq_false'] at hcreated
    obtain ⟨row, hsome⟩ := Option.isSome_iff_exists.mp
      (Profile.isSome_row? huser hcreated hadmits.live)
    rw [Profile.row?_apply hadmits.live hcreation hretired, hsome,
      absorb_of_update hcreation hretired (hrow.trans hsome)]
    exact Table.get?_insert _ _ _ _

end RowTable

namespace EventLog

/-- The row that the first events of a stream describe. -/
def rowAt (log : EventLog) (id : AggregateId) (cursor : Nat) : Option ProfileRow :=
  (Profile.load id ((log.history id).take cursor)).row?

/-- The rows are those that the streams describe up to the cursors. -/
structure Shows (log : EventLog) (cursor : AggregateId → Nat) (rows : RowTable) : Prop where
  bound : ∀ id, cursor id ≤ (log.stream id).length
  row : ∀ id, rows.get? id = log.rowAt id (cursor id)
  ordered : Table.Ordered rows

theorem Shows.start (log : EventLog) : log.Shows (fun _ => 0) .empty where
  bound _ := Nat.zero_le _
  row _ := rfl
  ordered := .empty

theorem Shows.extend {log : EventLog} (hlog : log.Lawful) {cursor : AggregateId → Nat}
    {rows : RowTable} (h : log.Shows cursor rows) {id : AggregateId} {command : ProfileCommand}
    {committed : List StoredEvent} (hcarries : CarriesOut log id command committed) :
    (log.extend id committed).Shows cursor rows where
  bound other := by
    rw [stream_extend]
    split
    · rename_i hother
      rw [List.length_append, hother]
      exact Nat.le_add_right_of_le (h.bound id)
    · exact h.bound other
  row other := by
    obtain ⟨p, events, batch, _, _, _, _, hwraps⟩ := hcarries
    have hholds := Repository.holds_number hwraps ((log.stream id).length + 1)
    rw [h.row, rowAt, rowAt, history_extend hholds]
    split
    · rename_i hother
      rw [hother, List.take_append_of_le_length]
      rw [hlog.length_history]
      exact h.bound id
    · rfl
  ordered := h.ordered

/-- What a stored event of a lawful log holds, and how it fits the events before it. -/
theorem Lawful.place {log : EventLog} (h : log.Lawful) {stored : StoredEvent}
    (hmem : stored ∈ log.commits) {cursor : Nat} (hnext : stored.sequenceNumber = cursor + 1) :
    ∃ e, stored.Holds stored.aggregateId e ∧ cursor < (log.stream stored.aggregateId).length ∧
      (log.history stored.aggregateId).take (cursor + 1) =
        (log.history stored.aggregateId).take cursor ++ [e] ∧
      (Profile.load stored.aggregateId ((log.history stored.aggregateId).take cursor)).Admits e := by
  obtain ⟨_, hplace⟩ := h.consistent.getElem?_stream hmem
  rw [hnext, Nat.add_sub_cancel] at hplace
  obtain ⟨hlt, hget⟩ := List.getElem?_eq_some_iff.mp hplace
  have hholds := h.holds stored.aggregateId
  have hlt' : cursor < (log.history stored.aggregateId).length := by
    rw [h.length_history]
    exact hlt
  have hfits := h.fits stored.aggregateId
  have htake : (log.history stored.aggregateId).take (cursor + 1) =
      (log.history stored.aggregateId).take cursor ++ [(log.history stored.aggregateId)[cursor]] := by
    rw [List.take_add_one, List.getElem?_eq_getElem hlt']
    rfl
  refine ⟨(log.history stored.aggregateId)[cursor], ?_, hlt, htake, ?_⟩
  · have hget' := hholds.get hlt' hlt
    simp only [List.get_eq_getElem, hget] at hget'
    exact hget'
  · rw [← List.take_append_drop (cursor + 1) (log.history stored.aggregateId), htake,
      List.append_assoc, Profile.fits_append] at hfits
    exact hfits.2.1

theorem Lawful.decodes {log : EventLog} (h : log.Lawful) {stored : StoredEvent}
    (hmem : stored ∈ log.commits) {cursor : Nat} (hnext : stored.sequenceNumber = cursor + 1)
    {e : ProfileEvent} (hdecode : ProfileEvent.decode stored.payload = .ok e) :
    cursor < (log.stream stored.aggregateId).length ∧
      (log.history stored.aggregateId).take (cursor + 1) =
        (log.history stored.aggregateId).take cursor ++ [e] ∧
      (Profile.load stored.aggregateId ((log.history stored.aggregateId).take cursor)).Admits e := by
  obtain ⟨e', hholds, hplace⟩ := h.place hmem hnext
  rw [hholds.decode_payload] at hdecode
  cases hdecode
  exact hplace

theorem Lawful.fits_take {log : EventLog} (h : log.Lawful) (id : AggregateId) (cursor : Nat) :
    (Profile.blank id).Fits ((log.history id).take cursor) := by
  have hfits := h.fits id
  rw [← List.take_append_drop cursor (log.history id), Profile.fits_append] at hfits
  exact hfits.1

/-- A row that is brought to another place of its stream takes its cursor there. -/
theorem Shows.move {log : EventLog} {cursor : AggregateId → Nat} {rows rows' : RowTable}
    (h : log.Shows cursor rows) {id : AggregateId} {number : Nat}
    (hbound : number ≤ (log.stream id).length)
    (hrow : ∀ other, rows'.get? other = if other = id then log.rowAt id number else rows.get? other)
    (hordered : Table.Ordered rows') : log.Shows (Function.update cursor id number) rows' where
  bound other := by
    by_cases hother : other = id
    · subst hother
      rw [Function.update_self]
      exact hbound
    · rw [Function.update_of_ne hother]
      exact h.bound other
  row other := by
    rw [hrow]
    by_cases hother : other = id
    · subst hother
      rw [if_pos rfl, Function.update_self]
    · rw [if_neg hother, Function.update_of_ne hother]
      exact h.row other
  ordered := hordered

theorem Shows.absorb {log : EventLog} (hlog : log.Lawful) {cursor : AggregateId → Nat}
    {rows : RowTable} (h : log.Shows cursor rows) {stored : StoredEvent}
    (hmem : stored ∈ log.commits)
    (hnext : stored.sequenceNumber = cursor stored.aggregateId + 1) {e : ProfileEvent}
    (hdecode : ProfileEvent.decode stored.payload = .ok e) :
    log.Shows (Function.update cursor stored.aggregateId stored.sequenceNumber) (rows.absorb e) := by
  obtain ⟨hlt, htake, hadmits⟩ := hlog.decodes hmem hnext hdecode
  have hget := RowTable.get?_absorb (hlog.fits_take _ _) hadmits (h.row _)
  rw [← htake] at hget
  rw [hnext]
  exact h.move hlt hget (RowTable.absorb_ordered h.ordered _)

theorem Lawful.shows_ofCommits {log : EventLog} (h : log.Lawful) {first rest : List StoredEvent}
    (hcommits : log.commits = first ++ rest) :
    log.Shows (lengths first) (RowTable.ofCommits first) := by
  induction first using List.reverseRecOn generalizing rest with
  | nil => exact .start log
  | append_singleton first stored ih =>
    rw [List.append_assoc, List.singleton_append] at hcommits
    have hmem : stored ∈ log.commits := hcommits ▸ List.mem_append_right _ List.mem_cons_self
    have hnumber := h.consistent.sequenceNumber_eq hcommits
    obtain ⟨e, hholds, _⟩ := h.place hmem hnumber
    have hrows : RowTable.ofCommits (first ++ [stored]) = (RowTable.ofCommits first).absorb e := by
      rw [RowTable.ofCommits, List.filterMap_append, List.foldl_append, ← RowTable.ofCommits]
      simp [hholds.profileEvent?_eq]
    have habsorb := (ih hcommits).absorb h hmem hnumber hholds.decode_payload
    rw [lengths_concat, ← hnumber, hrows]
    exact habsorb

/-- Rows that are in step with all streams are those of the commits in their order. -/
theorem Shows.eq_ofCommits {log : EventLog} (hlog : log.Lawful) {cursor : AggregateId → Nat}
    {rows : RowTable} (h : log.Shows cursor rows)
    (hcursor : ∀ id, cursor id = (log.stream id).length) : rows = RowTable.ofCommits log.commits := by
  have hall := hlog.shows_ofCommits (List.append_nil log.commits).symm
  refine h.ordered.ext hall.ordered fun id => ?_
  rw [h.row, hall.row, hcursor, hlog.consistent.lengths_commits]

theorem Shows.profileId_eq {log : EventLog} (hlog : log.Lawful) {cursor : AggregateId → Nat}
    {rows : RowTable} (h : log.Shows cursor rows) {id : AggregateId} {row : ProfileRow}
    (hrow : rows.get? id = some row) : row.profileId = id := by
  rw [h.row] at hrow
  rw [(Profile.agrees_of_row? hrow).profileId]
  exact (hlog.fits_take id (cursor id)).id_replay

/-- The values are the rows by their own ids, in ascending order. -/
theorem Shows.values {log : EventLog} (hlog : log.Lawful) {cursor : AggregateId → Nat}
    {rows : RowTable} (h : log.Shows cursor rows) :
    rows.values.Pairwise (fun a b => a.profileId < b.profileId) ∧
      ∀ row, row ∈ rows.values ↔ rows.get? row.profileId = some row := by
  have hkey : ∀ entry ∈ rows.entries, entry.2.profileId = entry.1 := by
    intro entry hmem
    exact h.profileId_eq hlog (h.ordered.get?_eq_some.mpr hmem)
  constructor
  · rw [Table.values, List.pairwise_map]
    refine h.ordered.imp_of_mem fun {a b} ha hb hlt => ?_
    rw [hkey a ha, hkey b hb]
    exact hlt
  · intro row
    rw [h.ordered.get?_eq_some, Table.values, List.mem_map]
    constructor
    · rintro ⟨entry, hmem, rfl⟩
      rw [hkey entry hmem]
      exact hmem
    · intro hmem
      exact ⟨(row.profileId, row), hmem, rfl⟩

end EventLog

end IdentityLedger
