import IdentityLedger.Proofs.EventStore.Log
import IdentityLedger.Proofs.Profile.History
import IdentityLedger.Proofs.Profile.Json
import IdentityLedger.Proofs.Steps
import IdentityLedger.Repository
import Mathlib.Data.List.Forall2

/-!
# Loading and committing profiles

A stored event holds a profile event if it has its type and its payload, and the payload is
read as that event. Loading a stream of such events replays the profile events they hold;
committing stores one of them for each event decided. A load that succeeds has replayed the
stream as it is, and the profile's version is the length of the stream.
-/
namespace IdentityLedger

theorem exists_of_mem_right {α β : Type} {R : α → β → Prop} {as : List α} {bs : List β}
    (h : List.Forall₂ R as bs) {b : β} (hmem : b ∈ bs) : ∃ a ∈ as, R a b := by
  induction h with
  | nil => contradiction
  | @cons a b' _ _ hab _ ih =>
    rcases List.mem_cons.mp hmem with rfl | hmem
    · exact ⟨a, List.mem_cons_self, hab⟩
    · obtain ⟨a', hmem', hab'⟩ := ih hmem
      exact ⟨a', List.mem_cons_of_mem _ hmem', hab'⟩

/-- A stored event of a stream that holds a profile event. -/
structure StoredEvent.Holds (id : AggregateId) (e : ProfileEvent) (stored : StoredEvent) : Prop where
  aggregateId_eq : stored.aggregateId = id
  aggregateType_eq : stored.aggregateType = Profile.aggregateType
  eventType_eq : stored.eventType = e.eventType
  payload_eq : stored.payload = e.toJson
  asRead_eq : e.asRead = e

theorem StoredEvent.Holds.decode_payload {id : AggregateId} {e : ProfileEvent} {stored : StoredEvent}
    (h : stored.Holds id e) : ProfileEvent.decode stored.payload = .ok e := by
  rw [h.payload_eq, ProfileEvent.decode_toJson, h.asRead_eq]

theorem StoredEvent.Holds.profileEvent?_eq {id : AggregateId} {e : ProfileEvent}
    {stored : StoredEvent} (h : stored.Holds id e) : stored.profileEvent? = some e := by
  rw [profileEvent?, ProfileEvent.ofJson?, h.decode_payload]
  rfl

namespace Repository

/-- The wrapping of a profile event under some id. -/
def Wraps (id : AggregateId) (e : ProfileEvent) (event : NewEvent) : Prop :=
  ∃ eventId, event = .ofProfileEvent id Profile.aggregateType eventId e

theorem uniform_of_wraps {id : AggregateId} {events : List ProfileEvent} {batch : List NewEvent}
    (h : List.Forall₂ (Wraps id) events batch) : ∀ event ∈ batch,
      event.aggregateId = id ∧ event.aggregateType = Profile.aggregateType := by
  intro event hmem
  obtain ⟨e, _, eventId, rfl⟩ := exists_of_mem_right h hmem
  exact ⟨rfl, rfl⟩

theorem holds_number {id : AggregateId} {events : List ProfileEvent} {batch : List NewEvent}
    (h : List.Forall₂ (Wraps id) events batch) (first : Nat) :
    List.Forall₂ (StoredEvent.Holds id) (events.map ProfileEvent.asRead)
      (EventLog.number first batch) := by
  induction h generalizing first with
  | nil => exact .nil
  | @cons e _ _ _ hwraps _ ih =>
    obtain ⟨eventId, rfl⟩ := hwraps
    have hstored : (NewEvent.numbered (.ofProfileEvent id Profile.aggregateType eventId e) first).Holds
        id e.asRead :=
      ⟨rfl, rfl, e.eventType_asRead.symm, e.toJson_asRead.symm, e.asRead_asRead⟩
    exact .cons hstored (ih _)

theorem map_asRead_of_holds {id : AggregateId} {history : List ProfileEvent}
    {stream : List StoredEvent} (h : List.Forall₂ (StoredEvent.Holds id) history stream) :
    history.map ProfileEvent.asRead = history := by
  induction h with
  | nil => rfl
  | cons hholds _ ih => rw [List.map_cons, hholds.asRead_eq, ih]

theorem map_payload_number {id : AggregateId} {events : List ProfileEvent} {batch : List NewEvent}
    (h : List.Forall₂ (Wraps id) events batch) (first : Nat) :
    (EventLog.number first batch).map StoredEvent.payload = events.map ProfileEvent.toJson := by
  induction h generalizing first with
  | nil => rfl
  | cons hwraps _ ih =>
    obtain ⟨eventId, rfl⟩ := hwraps
    rw [EventLog.number, List.map_cons, List.map_cons, ih]
    rfl

theorem applyStored_of_holds {id : AggregateId} {events : List ProfileEvent}
    {stream : List StoredEvent} (h : List.Forall₂ (StoredEvent.Holds id) events stream)
    (p : Profile) : applyStored p stream = .ok (p.replay events) := by
  induction h generalizing p with
  | nil => rfl
  | cons hholds _ ih =>
    rw [applyStored, hholds.decode_payload]
    exact ih _

theorem exists_replay_of_applyStored {p q : Profile} {stream : List StoredEvent}
    (h : applyStored p stream = .ok q) :
    ∃ events, events.length = stream.length ∧ q = p.replay events := by
  induction stream generalizing p with
  | nil =>
    cases h
    exact ⟨[], rfl, rfl⟩
  | cons stored stream ih =>
    rw [applyStored] at h
    split at h
    · contradiction
    · rename_i e _
      obtain ⟨events, hlength, rfl⟩ := ih h
      exact ⟨e :: events, by rw [List.length_cons, hlength, List.length_cons], rfl⟩

theorem version_of_applyStored {id : AggregateId} {q : Profile} {stream : List StoredEvent}
    (h : applyStored (.blank id) stream = .ok q) : q.version = stream.length := by
  obtain ⟨events, hlength, rfl⟩ := exists_replay_of_applyStored h
  rw [Profile.version_replay, hlength]
  exact Nat.zero_add _

theorem uncommitted_of_applyStored {id : AggregateId} {q : Profile} {stream : List StoredEvent}
    (h : applyStored (.blank id) stream = .ok q) : q.uncommitted = .empty := by
  obtain ⟨events, _, rfl⟩ := exists_replay_of_applyStored h
  exact Profile.uncommitted_replay _ _

theorem applyStored_of_replayStream {id : AggregateId} {q : Profile} {stream : List StoredEvent}
    (h : replayStream id stream = .ok q) : applyStored (.blank id) stream = .ok q := by
  cases stream with
  | nil => contradiction
  | cons stored stream =>
    rw [replayStream] at h
    · split at h
      · contradiction
      · exact h
    · simp

theorem streamError?_eq_none {id : AggregateId} {stream : List StoredEvent} {index : Nat}
    (hown : ∀ stored ∈ stream, stored.aggregateId = id)
    (hnumbered : stream.map StoredEvent.sequenceNumber = List.range' (index + 1) stream.length) :
    streamError? id index stream = none := by
  induction stream generalizing index with
  | nil => rfl
  | cons stored stream ih =>
    rw [List.forall_mem_cons] at hown
    rw [List.map_cons, List.length_cons, List.range'_succ, List.cons.injEq] at hnumbered
    rw [streamError?, if_neg (not_not.mpr hown.1), if_neg (not_not.mpr hnumbered.1)]
    exact ih hown.2 hnumbered.2

/-- A stream of a consistent log that holds profile events loads. -/
theorem replayStream_of_holds {log : EventLog} (hlog : log.Consistent) {id : AggregateId}
    {events : List ProfileEvent}
    (h : List.Forall₂ (StoredEvent.Holds id) events (log.stream id)) (hevents : events ≠ []) :
    replayStream id (log.stream id) = .ok (.load id events) := by
  have herror : streamError? id 0 (log.stream id) = none :=
    streamError?_eq_none (fun _ => hlog.aggregateId_eq) (hlog.numbered id)
  have happly := applyStored_of_holds h (.blank id)
  have hstream : log.stream id ≠ [] := by
    intro hnil
    rw [hnil] at h
    exact hevents (List.forall₂_nil_right_iff.mp h)
  unfold replayStream
  split
  · contradiction
  · rw [herror]
    exact happly

variable {ω : Type} [IdSupply ω]

theorem wrap_spec {keeps : ω → ω → Prop} (hrefl : ∀ w, keeps w w)
    (htrans : ∀ {a b c}, keeps a b → keeps b c → keeps a c)
    (hfresh : ∀ w, keeps w (IdSupply.fresh w).2) (id : AggregateId) (events : List ProfileEvent)
    (w : ω) : List.Forall₂ (Wraps id) events (wrap id events w).1 ∧ keeps w (wrap id events w).2 := by
  induction events generalizing w with
  | nil => exact ⟨.nil, hrefl w⟩
  | cons e events ih =>
    obtain ⟨hrest, hkeeps⟩ := ih (IdSupply.fresh w).2
    exact ⟨.cons ⟨_, rfl⟩ hrest, htrans (hfresh w) hkeeps⟩

end Repository

end IdentityLedger
