import IdentityLedger.Projection.Backlog
import Mathlib.Data.List.Basic
import Mathlib.Data.List.Induction

/-!
# Parked envelopes by their place

What parking, taking and pruning do to the envelopes of one stream. Taking the one that
follows a cursor and pruning at the cursor is the same as pruning one place further.
-/
namespace IdentityLedger.Backlog
variable {b : Backlog} {id : AggregateId} {number cursor : Nat} {e : Envelope Json}

theorem isAt_iff : isAt id number e = true ↔ e.aggregateId = id ∧ e.sequenceNumber = number := by
  simp [isAt]

theorem mem_park {envelope : Envelope Json} : e ∈ (b.park envelope).envelopes ↔
    e = envelope ∨ e ∈ b.envelopes ∧
      ¬(e.aggregateId = envelope.aggregateId ∧ e.sequenceNumber = envelope.sequenceNumber) := by
  simp only [park, List.mem_append, List.mem_filter, List.mem_singleton, Bool.not_eq_true',
    ← Bool.not_eq_true, isAt_iff]
  exact or_comm

theorem mem_prune : e ∈ (b.prune id cursor).envelopes ↔
    e ∈ b.envelopes ∧ ¬(e.aggregateId = id ∧ e.sequenceNumber ≤ cursor) := by
  simp only [prune, List.mem_filter, Bool.not_eq_true', decide_eq_false_iff_not]

theorem mem_of_find? (h : b.find? id number = some e) :
    e ∈ b.envelopes ∧ e.aggregateId = id ∧ e.sequenceNumber = number :=
  ⟨List.mem_of_find?_eq_some h, isAt_iff.mp (List.find?_some (p := isAt id number) h)⟩

theorem find?_eq_none (h : ∀ e ∈ b.envelopes, e.aggregateId = id → e.sequenceNumber ≠ number) :
    b.find? id number = none := by
  rw [find?, List.find?_eq_none]
  intro e hmem hat
  rw [isAt_iff] at hat
  exact h e hmem hat.1 hat.2

theorem size_remove_lt (h : b.find? id number = some e) : (b.remove id number).size < b.size := by
  obtain ⟨hmem, hat⟩ := mem_of_find? h
  refine List.length_filter_lt_length_iff_exists.mpr ⟨e, hmem, ?_⟩
  rw [isAt_iff.mpr hat]
  simp

theorem prune_eq_self (h : ∀ e ∈ b.envelopes, e.aggregateId = id → cursor < e.sequenceNumber) :
    b.prune id cursor = b := by
  have hall : b.envelopes.filter (fun e => !(e.aggregateId = id ∧ e.sequenceNumber ≤ cursor)) =
      b.envelopes := by
    rw [List.filter_eq_self]
    intro e hmem
    have := h e hmem
    by_cases hid : e.aggregateId = id
    · simp [hid, this hid]
    · simp [hid]
  rw [prune, hall]

/-- Nothing is at the next place, so it can be pruned as well. -/
theorem prune_succ (h : b.find? id (cursor + 1) = none) :
    b.prune id cursor = b.prune id (cursor + 1) := by
  rw [prune, prune]
  congr 1
  apply List.filter_congr
  intro e hmem
  rw [find?, List.find?_eq_none] at h
  have hat := h e hmem
  rw [isAt_iff] at hat
  by_cases hid : e.aggregateId = id
  · have hne : e.sequenceNumber ≠ cursor + 1 := fun hnumber => hat ⟨hid, hnumber⟩
    have hle : e.sequenceNumber ≤ cursor ↔ e.sequenceNumber ≤ cursor + 1 := by omega
    simp [hid, hle]
  · simp [hid]

theorem prune_remove (h : number ≤ cursor) :
    (b.remove id number).prune id cursor = b.prune id cursor := by
  rw [prune, prune, remove, List.filter_filter]
  congr 1
  apply List.filter_congr
  intro e _
  by_cases hid : e.aggregateId = id
  · by_cases hnumber : e.sequenceNumber = number
    · simp [isAt, hid, hnumber, h]
    · simp [isAt, hid, hnumber]
  · simp [isAt, hid]

theorem find?_remove_of_ne {other : Nat} (h : other ≠ number) :
    (b.remove id number).find? id other = b.find? id other := by
  rw [find?, find?, remove, List.find?_filter]
  congr 1
  funext e
  by_cases hat : isAt id other e = true
  · have hnumber : e.sequenceNumber ≠ number := (isAt_iff.mp hat).2 ▸ h
    simp [isAt, hnumber]
  · simp [hat]

theorem find?_remove_self : (b.remove id number).find? id number = none := by
  apply find?_eq_none
  intro e hmem hid hnumber
  have hkept := (List.mem_filter.mp hmem).2
  rw [isAt_iff.mpr ⟨hid, hnumber⟩] at hkept
  contradiction

theorem mem_insertId {other : AggregateId} {ids : List AggregateId} :
    other ∈ insertId id ids ↔ other = id ∨ other ∈ ids := by
  induction ids with
  | nil => rw [insertId, List.mem_singleton, or_iff_left List.not_mem_nil]
  | cons first ids ih =>
    rw [insertId]
    split_ifs with hsame hbefore
    · rw [hsame, List.mem_cons, ← or_assoc, or_self]
    · exact List.mem_cons
    · rw [List.mem_cons, ih, List.mem_cons, or_left_comm]

theorem mem_aggregates : id ∈ b.aggregates ↔ ∃ e ∈ b.envelopes, e.aggregateId = id := by
  obtain ⟨envelopes⟩ := b
  induction envelopes using List.reverseRecOn with
  | nil => simp [aggregates]
  | append_singleton envelopes e ih =>
    rw [aggregates, List.foldl_append]
    change id ∈ insertId e.aggregateId (aggregates ⟨envelopes⟩) ↔ _
    rw [mem_insertId, ih]
    simp only [List.mem_append, List.mem_singleton, or_and_right, exists_or, exists_eq_left]
    rw [eq_comm]
    exact or_comm

theorem eq_nil_of_aggregates (h : b.aggregates = []) : b.envelopes = [] := by
  apply List.eq_nil_iff_forall_not_mem.mpr
  intro e hmem
  have hid : e.aggregateId ∈ b.aggregates := mem_aggregates.mpr ⟨e, hmem, rfl⟩
  rw [h] at hid
  exact List.not_mem_nil hid

end IdentityLedger.Backlog
