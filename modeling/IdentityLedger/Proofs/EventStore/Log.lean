import IdentityLedger.EventStore.Log
import Mathlib.Data.List.Basic
import Mathlib.Logic.Function.Basic

/-!
# What appends keep true of a log

The streams of a log are its commits sorted by aggregate, each numbered from 1 without
gaps. Every append keeps this, whatever is asked for. In such a log the version of a
stream is its length, so an append that expects an exact version lands only on a stream
to which nothing was added since that version was seen.
-/
namespace IdentityLedger

/-- A request to append a batch to a stream. -/
structure AppendRequest where
  target : AggregateId
  expected : ExpectedVersion
  events : List NewEvent

/-- In a list that is numbered from 1, an element stands at the place before its number. -/
theorem getElem?_of_numbered {α : Type} {number : α → Nat} {l : List α}
    (h : l.map number = List.range' 1 l.length) {a : α} (hmem : a ∈ l) :
    0 < number a ∧ l[number a - 1]? = some a := by
  obtain ⟨index, hindex⟩ := List.mem_iff_getElem?.mp hmem
  have hnumber := congrArg (·[index]?) h
  have hlt := (List.getElem?_eq_some_iff.mp hindex).1
  rw [List.getElem?_map, hindex, List.getElem?_range' hlt] at hnumber
  have hplace : number a = 1 + index := by simpa using hnumber
  refine ⟨by omega, ?_⟩
  rw [hplace, Nat.add_sub_cancel_left]
  exact hindex

theorem filter_key_eq {α κ : Type} [DecidableEq κ] {key : α → κ} {l : List α}
    (h : (l.map key).Nodup) {a : α} (hmem : a ∈ l) : l.filter (fun x => key x = key a) = [a] := by
  induction l with
  | nil => contradiction
  | cons first rest ih =>
    rw [List.map_cons, List.nodup_cons] at h
    rcases List.mem_cons.mp hmem with rfl | hmem
    · rw [List.filter_cons_of_pos (by simp), List.filter_eq_nil_iff.mpr]
      intro other hother
      rw [decide_eq_true_eq]
      exact fun hsame => h.1 (hsame ▸ List.mem_map_of_mem hother)
    · rw [List.filter_cons_of_neg, ih h.2 hmem]
      rw [decide_eq_true_eq]
      exact fun hsame => h.1 (hsame ▸ List.mem_map_of_mem hmem)

theorem firstObjection?_eq_none_iff {target : AggregateId} {type : String} {index : Nat}
    {events : List NewEvent} : firstObjection? target type index events = none ↔
      ∀ event ∈ events, event.aggregateId = target ∧ event.aggregateType = type := by
  induction events generalizing index with
  | nil => simp [firstObjection?]
  | cons event events ih =>
    rw [firstObjection?, List.forall_mem_cons, ← @ih (index + 1)]
    by_cases hid : event.aggregateId = target <;> by_cases htype : event.aggregateType = type <;>
      simp [NewEvent.objection?, hid, htype]

theorem batchError?_eq_none {target : AggregateId} {events : List NewEvent}
    (h : batchError? target events = none) : ∀ event ∈ events, event.aggregateId = target := by
  cases events with
  | nil => simp
  | cons event events => exact fun other hmem => (firstObjection?_eq_none_iff.mp h other hmem).1

namespace EventLog

@[simp] theorem length_number (first : Nat) (events : List NewEvent) :
    (number first events).length = events.length := by
  induction events generalizing first with
  | nil => rfl
  | cons event events ih => simp [number, ih]

theorem sequenceNumber_number (first : Nat) (events : List NewEvent) :
    (number first events).map StoredEvent.sequenceNumber = List.range' first events.length := by
  induction events generalizing first with
  | nil => rfl
  | cons event events ih =>
    rw [number, List.map_cons, ih, List.length_cons, List.range'_succ]
    rfl

theorem aggregateId_of_mem_number {id : AggregateId} {first : Nat} {events : List NewEvent}
    (h : ∀ event ∈ events, event.aggregateId = id) :
    ∀ stored ∈ number first events, stored.aggregateId = id := by
  induction events generalizing first with
  | nil => simp [number]
  | cons event events ih =>
    rw [List.forall_mem_cons] at h
    rw [number, List.forall_mem_cons]
    exact ⟨h.1, ih h.2⟩

theorem stream_extend (log : EventLog) (id other : AggregateId) (committed : List StoredEvent) :
    (log.extend id committed).stream other =
      if other = id then log.stream id ++ committed else log.stream other := by
  rw [stream, extend, Table.get?_insert]
  split <;> rfl

@[simp] theorem commits_extend (log : EventLog) (id : AggregateId) (committed : List StoredEvent) :
    (log.extend id committed).commits = log.commits ++ committed := rfl

/-- The streams are the commits by aggregate, and each is numbered from 1 without gaps. -/
structure Consistent (log : EventLog) : Prop where
  stream_eq : ∀ id, log.stream id = log.commits.filter fun e => e.aggregateId = id
  numbered : ∀ id,
    (log.stream id).map StoredEvent.sequenceNumber = List.range' 1 (log.stream id).length

theorem Consistent.empty : Consistent .empty where
  stream_eq _ := rfl
  numbered _ := rfl

theorem Consistent.aggregateId_eq {log : EventLog} (h : log.Consistent) {id : AggregateId}
    {stored : StoredEvent} (hmem : stored ∈ log.stream id) : stored.aggregateId = id := by
  rw [h.stream_eq] at hmem
  simpa using (List.mem_filter.mp hmem).2

theorem Consistent.currentVersion_eq {log : EventLog} (h : log.Consistent) (id : AggregateId) :
    currentVersion (log.stream id) = (log.stream id).length := by
  have hlast := congrArg List.getLast? (h.numbered id)
  rw [List.getLast?_map, List.getLast?_range'] at hlast
  rw [currentVersion, hlast]
  split
  · rename_i hnil
    simp [hnil]
  · simp

theorem Consistent.getElem?_stream {log : EventLog} (h : log.Consistent) {stored : StoredEvent}
    (hmem : stored ∈ log.commits) :
    0 < stored.sequenceNumber ∧
      (log.stream stored.aggregateId)[stored.sequenceNumber - 1]? = some stored := by
  have hstream : stored ∈ log.stream stored.aggregateId := by
    rw [h.stream_eq]
    exact List.mem_filter.mpr ⟨hmem, by simp⟩
  exact getElem?_of_numbered (h.numbered _) hstream

/-- Every place of a stream is that of a committed event. -/
theorem Consistent.exists_stored {log : EventLog} (h : log.Consistent) {id : AggregateId} {place : Nat}
    (hlt : place < (log.stream id).length) :
    ∃ stored ∈ log.commits, stored.aggregateId = id ∧ stored.sequenceNumber = place + 1 := by
  have hnumbered := congrArg (·[place]?) (h.numbered id)
  rw [List.getElem?_map, List.getElem?_eq_getElem hlt, List.getElem?_range' hlt] at hnumbered
  have hmem := List.getElem_mem hlt
  generalize (log.stream id)[place] = stored at hmem hnumbered
  rw [h.stream_eq, List.mem_filter, decide_eq_true_eq] at hmem
  exact ⟨stored, hmem.1, hmem.2, by simpa [Nat.add_comm] using hnumbered⟩

/-- How many of some commits each stream has. -/
def lengths (commits : List StoredEvent) (id : AggregateId) : Nat :=
  (commits.filter fun e => e.aggregateId = id).length

theorem lengths_concat (commits : List StoredEvent) (stored : StoredEvent) :
    lengths (commits ++ [stored]) =
      Function.update (lengths commits) stored.aggregateId
        (lengths commits stored.aggregateId + 1) := by
  funext id
  rw [lengths, List.filter_append, List.length_append, ← lengths]
  by_cases hid : id = stored.aggregateId
  · subst hid
    simp
  · simp [Function.update_of_ne hid, Ne.symm hid]

theorem Consistent.lengths_commits {log : EventLog} (h : log.Consistent) (id : AggregateId) :
    lengths log.commits id = (log.stream id).length := by
  rw [lengths, ← h.stream_eq]

theorem Consistent.sequenceNumber_eq {log : EventLog} (h : log.Consistent)
    {first rest : List StoredEvent} {stored : StoredEvent}
    (hcommits : log.commits = first ++ stored :: rest) :
    stored.sequenceNumber = lengths first stored.aggregateId + 1 := by
  have hnumber := congrArg (·[lengths first stored.aggregateId]?) (h.numbered stored.aggregateId)
  have hstream : log.stream stored.aggregateId =
      first.filter (fun e => e.aggregateId = stored.aggregateId) ++
        stored :: rest.filter fun e => e.aggregateId = stored.aggregateId := by
    rw [h.stream_eq, hcommits, List.filter_append, List.filter_cons_of_pos (by simp)]
  have hlt : lengths first stored.aggregateId < (log.stream stored.aggregateId).length := by
    rw [hstream, List.length_append, List.length_cons, ← lengths]
    omega
  rw [List.getElem?_range' hlt, List.getElem?_map, hstream, lengths,
    List.getElem?_append_right (Nat.le_refl _), Nat.sub_self, List.getElem?_cons_zero] at hnumber
  simpa [Nat.add_comm, lengths] using hnumber

/-- What an append can do: nothing at all, or extend the stream and the commits by the
whole batch, numbered from the version that the stream had. -/
inductive Appended (log : EventLog) (id : AggregateId) (expected : ExpectedVersion)
    (events : List NewEvent) : Except EventStoreError (List StoredEvent) × EventLog → Prop
  | refused (error : EventStoreError) : Appended log id expected events (.error error, log)
  | empty (hempty : events = []) : Appended log id expected events (.ok [], log)
  | stored (hevents : events ≠ []) (htarget : ∀ event ∈ events, event.aggregateId = id)
      (hversion : expected.admits (currentVersion (log.stream id)) = true) :
      Appended log id expected events
        (.ok (number (currentVersion (log.stream id) + 1) events),
          log.extend id (number (currentVersion (log.stream id) + 1) events))

theorem append_cases (log : EventLog) (id : AggregateId) (expected : ExpectedVersion)
    (events : List NewEvent) : Appended log id expected events (log.append id expected events) := by
  cases events with
  | nil => exact .empty rfl
  | cons first rest =>
    simp only [append]
    split
    · exact .refused _
    · rename_i hbatch
      split
      · exact .refused _
      · rename_i hadmits
        refine .stored (by simp) (batchError?_eq_none hbatch) ?_
        by_contra hversion
        rw [Bool.not_eq_true] at hversion
        simp [appendError?, hversion] at hadmits

theorem Consistent.extend {log : EventLog} (h : log.Consistent) {id : AggregateId}
    {events : List NewEvent} (htarget : ∀ event ∈ events, event.aggregateId = id) :
    (log.extend id (number ((log.stream id).length + 1) events)).Consistent where
  stream_eq other := by
    have hown : ∀ stored ∈ number ((log.stream id).length + 1) events, stored.aggregateId = id :=
      aggregateId_of_mem_number htarget
    rw [stream_extend, commits_extend, List.filter_append]
    split
    · rename_i hid
      subst hid
      rw [← h.stream_eq]
      congr 1
      refine (List.filter_eq_self.mpr ?_).symm
      intro stored hstored
      simpa using hown stored hstored
    · rename_i hid
      rw [h.stream_eq]
      refine (List.append_right_eq_self.mpr (List.filter_eq_nil_iff.mpr ?_)).symm
      intro stored hstored
      simpa [hown stored hstored] using Ne.symm hid
  numbered other := by
    rw [stream_extend]
    split
    · rw [List.map_append, h.numbered, sequenceNumber_number, List.length_append, length_number,
        ← List.range'_append_1]
      congr 2
      omega
    · exact h.numbered other

theorem Consistent.append {log : EventLog} (h : log.Consistent) (id : AggregateId)
    (expected : ExpectedVersion) (events : List NewEvent) :
    (log.append id expected events).2.Consistent := by
  have hcases := log.append_cases id expected events
  generalize log.append id expected events = result at hcases
  cases hcases with
  | refused | empty => exact h
  | stored _ htarget _ =>
    rw [h.currentVersion_eq]
    exact h.extend htarget

/-- Carries out requests one after another; a refused one changes nothing. -/
def appendAll (log : EventLog) (requests : List AppendRequest) : EventLog :=
  requests.foldl (fun log r => (log.append r.target r.expected r.events).2) log

theorem appendAll_append (log : EventLog) (first rest : List AppendRequest) :
    log.appendAll (first ++ rest) = (log.appendAll first).appendAll rest := List.foldl_append

theorem stream_prefix_append (log : EventLog) (id other : AggregateId)
    (expected : ExpectedVersion) (events : List NewEvent) :
    log.stream other <+: (log.append id expected events).2.stream other := by
  have hcases := log.append_cases id expected events
  generalize log.append id expected events = result at hcases
  cases hcases with
  | refused | empty => exact List.prefix_rfl
  | stored =>
    rw [stream_extend]
    split
    · rename_i hid
      rw [hid]
      exact List.prefix_append _ _
    · exact List.prefix_rfl

theorem stream_prefix_appendAll (log : EventLog) (requests : List AppendRequest)
    (id : AggregateId) : log.stream id <+: (log.appendAll requests).stream id := by
  induction requests generalizing log with
  | nil => exact List.prefix_rfl
  | cons request requests ih => exact (stream_prefix_append log _ id _ _).trans (ih _)

theorem Consistent.appendAll {log : EventLog} (h : log.Consistent) (requests : List AppendRequest) :
    (log.appendAll requests).Consistent := by
  induction requests generalizing log with
  | nil => exact h
  | cons request requests ih => exact ih (h.append _ _ _)

end EventLog

end IdentityLedger
