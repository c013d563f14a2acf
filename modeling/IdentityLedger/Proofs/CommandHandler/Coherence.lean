import IdentityLedger.Proofs.CommandHandler.Race
import IdentityLedger.Proofs.Profile.Coherent
import IdentityLedger.Proofs.Profile.Lifecycle
import IdentityLedger.Proofs.Records

/-!
# The coherence of written streams

Every batch is decided on its whole stream, as one piece. So what decisions promise about a
history holds of each stream that handlers write, however they compete, and the metadata of
every stored event is that of the event in its payload. A stray time is told by the metadata
as it was given, and by the payload as it is read.
-/
namespace IdentityLedger

/-- A stored event that holds a profile event, with the metadata of that event. -/
structure StoredEvent.Records (e : ProfileEvent) (stored : StoredEvent) : Prop where
  payload : ProfileEvent.decode stored.payload = .ok e
  aggregateId : e.profileId = stored.aggregateId
  eventType : e.eventType = stored.eventType
  version : e.schemaVersion = stored.eventVersion
  occurredAt : e.occurredAt = stored.occurredAt

theorem StoredEvent.Records.of_asRead {e : ProfileEvent} {stored : StoredEvent}
    (h : stored.asRead.Records e) (htime : ¬ stored.occurredAt.IsStray) : stored.Records e := by
  rwa [StoredEvent.asRead_eq_self_iff.mpr htime] at h

/-- A stored event was given the time of a profile event, and is read as that event is. -/
structure StoredEvent.Keeps (e : ProfileEvent) (stored : StoredEvent) : Prop where
  occurredAt : stored.occurredAt = e.occurredAt
  records : stored.asRead.Records e.asRead

theorem StoredEvent.Keeps.records_of_times {e : ProfileEvent} {stored : StoredEvent}
    (h : stored.Keeps e) (htimes : ∀ t ∈ e.times, ¬ t.IsStray) : stored.Records e := by
  have htime : ¬ stored.occurredAt.IsStray := h.occurredAt ▸ htimes _ List.mem_cons_self
  have hrecords := h.records.of_asRead htime
  rwa [ProfileEvent.asRead_eq_self_iff.mpr htimes] at hrecords

theorem Repository.keeps_number {id : AggregateId} {events : List ProfileEvent}
    {batch : List NewEvent} (hwraps : List.Forall₂ (Wraps id) events batch)
    (hown : ∀ e ∈ events, e.profileId = id) (first : Nat) :
    List.Forall₂ StoredEvent.Keeps events (EventLog.number first batch) := by
  induction hwraps generalizing first with
  | nil => exact .nil
  | @cons e _ _ _ hwrap _ ih =>
    rw [List.forall_mem_cons] at hown
    obtain ⟨eventId, rfl⟩ := hwrap
    exact .cons ⟨rfl, e.decode_toJson, hown.1, e.eventType_asRead, rfl, rfl⟩ (ih hown.2 _)

namespace EventLog

/-- A stored batch keeps what its command decides on the profile of its stream. -/
theorem Lawful.decided_keeps {log : EventLog} (h : log.Lawful) {id : AggregateId}
    {command : ProfileCommand} {committed : List StoredEvent}
    (hcarries : CarriesOut log id command committed) :
    ∃ events, (Profile.load id (log.history id)).decide command = .ok events ∧
      (∀ e ∈ events, e.profileId = id) ∧ List.Forall₂ StoredEvent.Keeps events committed := by
  obtain ⟨p, events, batch, hreplayed, hdecided, hfits, _, hwraps⟩ := hcarries
  rw [h.applyStored_eq] at hreplayed
  cases hreplayed
  have hown : ∀ e ∈ events, e.profileId = id := by
    intro e he
    exact (hfits.profileId_eq e he).trans (h.fits id).id_replay
  exact ⟨events, hdecided, hown, Repository.keeps_number hwraps hown _⟩

/-- What a stream records is permitted event by event, and every pass in it is followed by
its activation. -/
structure Recorded (log : EventLog) (id : AggregateId) : Prop where
  records : List.Forall₂ (fun e stored => stored.asRead.Records e) (log.history id) (log.stream id)
  orderly : (Profile.blank id).Orderly (log.history id)
  paired : Paired (log.history id)

theorem Recorded.empty (id : AggregateId) : EventLog.empty.Recorded id := ⟨.nil, trivial, trivial⟩

theorem Recorded.extend {log : EventLog} (hlog : log.Lawful) (h : ∀ id, log.Recorded id)
    {id : AggregateId} {command : ProfileCommand} {committed : List StoredEvent}
    (hcarries : CarriesOut log id command committed) (other : AggregateId) :
    (log.extend id committed).Recorded other := by
  obtain ⟨events, hdecided, _, hkeeps⟩ := hlog.decided_keeps hcarries
  obtain ⟨read, hread, hfits, hholds⟩ := hlog.decided hcarries
  obtain rfl : events.map ProfileEvent.asRead = read :=
    Except.ok.inj ((Profile.decide_asRead (hlog.asRead_load id) hdecided).symm.trans hread)
  have hyields := Profile.yields_decide hread
  have horderly := Profile.orderly_decide (fun _ => hfits.live (Profile.ne_nil_of_yields hyields)) hread
  have hrecords : List.Forall₂ (fun e stored => stored.asRead.Records e)
      (events.map ProfileEvent.asRead) committed :=
    List.forall₂_map_left_iff.mpr (hkeeps.imp fun _ _ h => h.records)
  by_cases hother : other = id
  · subst hother
    constructor
    · rw [history_extend hholds, if_pos rfl, stream_extend, if_pos rfl]
      exact List.rel_append (h other).records hrecords
    · rw [history_extend hholds, if_pos rfl]
      exact Profile.orderly_append.mpr ⟨(h other).orderly, horderly⟩
    · rw [history_extend hholds, if_pos rfl]
      exact (h other).paired.append (paired_of_yields hyields)
  · constructor
    · rw [history_extend hholds, if_neg hother, stream_extend, if_neg hother]
      exact (h other).records
    · rw [history_extend hholds, if_neg hother]
      exact (h other).orderly
    · rw [history_extend hholds, if_neg hother]
      exact (h other).paired

theorem Written.recorded {log : EventLog} (h : log.Written) (id : AggregateId) : log.Recorded id := by
  have hkeeps := h.keeps (P := fun log => ∀ id, log.Recorded id) Recorded.empty
    fun hlog hrecorded hcarries => Recorded.extend hlog hrecorded hcarries
  exact hkeeps.2 id

end EventLog

/-- However handlers interleave, each stream of the log they leave records a coherent history
of its profile, event by event with the metadata of the event: the same time, or, if that is
stray, the one it is read as. -/
theorem Race.run_coherent (calls : List HandlerCall) (turns : List Nat) (id : AggregateId) :
    ∃ history, Coherent history ∧
      List.Forall₂ (fun e stored => stored.asRead.Records e ∧
          (stored.occurredAt.IsStray ∨ stored.Records e))
        history (((start calls).run turns).log.stream id) := by
  have hrecorded := (run_written calls turns).recorded id
  refine ⟨_, hrecorded.orderly.coherent hrecorded.paired, hrecorded.records.imp fun _ _ h => ⟨h, ?_⟩⟩
  exact or_iff_not_imp_left.mpr h.of_asRead

/-- A profile that is added at a stray time is stored with that time, and with a payload that
decodes to another. -/
theorem Race.run_stray :
    let call : HandlerCall := ⟨.immediate 1, .add (some ⟨⟨1⟩⟩) ⟨⟨2⟩⟩ .stray, .timeOrdered⟩
    let stream := ((start [call]).run (List.replicate 9 0)).log.stream ⟨⟨1⟩⟩
    stream.map StoredEvent.occurredAt = [.stray] ∧
      stream.map (fun stored => stored.profileEvent?.map ProfileEvent.occurredAt) =
        [some Timestamp.stray.asRead] ∧
      Timestamp.stray.asRead ≠ .stray := by
  decide +kernel

/-- A profile is at some point of its life wherever commands and commits have taken it, and so
is one that is loaded from what handlers have written, however they interleaved. Only an
aggregate without events does not load. -/
theorem reachable_lifecycle (id : AggregateId) (calls : List SessionCall)
    (handlers : List HandlerCall) (turns : List Nat) :
    let log := ((Race.start handlers).run turns).log
    ((Session.start id).run calls).profile.Lifecycle ∧
      match (Repository.load (EventLog.store .whole) id log).1 with
      | .ok p => p.Lifecycle
      | .error error => log.stream id = [] ∧ error = .notFound id := by
  intro log
  refine ⟨Session.lifecycle_profile id calls, ?_⟩
  have hwritten : log.Written := Race.run_written handlers turns
  change match Repository.replayStream id (log.stream id) with
    | .ok p => p.Lifecycle
    | .error error => log.stream id = [] ∧ error = .notFound id
  by_cases hstream : log.stream id = []
  · rw [hstream]
    exact ⟨rfl, rfl⟩
  · rw [hwritten.lawful.replayStream_eq hstream]
    exact .load (hwritten.recorded id).orderly

end IdentityLedger
