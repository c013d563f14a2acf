import IdentityLedger.Proofs.EventStore.Log

/-!
# The integrity of a log

What can be relied on after any run of requests, whatever they ask for: every stream is
gapless, of its own aggregate and of one aggregate type, and it is what the commits hold
of it. A refused request leaves no trace, an accepted one adds its batch as it is, and no
two batches are ever stored at the same expected version.
-/
namespace IdentityLedger

def StoredEvent.content (stored : StoredEvent) : NewEvent where
  eventId := stored.eventId
  aggregateId := stored.aggregateId
  aggregateType := stored.aggregateType
  eventType := stored.eventType
  eventVersion := stored.eventVersion
  occurredAt := stored.occurredAt
  payload := stored.payload

namespace EventLog

@[simp] theorem content_number (first : Nat) (events : List NewEvent) :
    (number first events).map StoredEvent.content = events := by
  induction events generalizing first with
  | nil => rfl
  | cons event events ih =>
    rw [number, List.map_cons, ih]
    rfl

theorem aggregateType_of_mem_number {type : String} {first : Nat} {events : List NewEvent}
    (h : ∀ event ∈ events, event.aggregateType = type) :
    ∀ stored ∈ number first events, stored.aggregateType = type := by
  intro stored hmem
  have hcontent : stored.content ∈ events := by
    rw [← content_number first events]
    exact List.mem_map_of_mem hmem
  exact h _ hcontent

/-- A batch that a log takes: all of it is for its target and of the type of the stream,
and the stream is at the version that the batch expects. -/
structure Accepts (log : EventLog) (id : AggregateId) (expected : ExpectedVersion)
    (events : List NewEvent) : Prop where
  version : expected.admits (currentVersion (log.stream id)) = true
  uniform : ∃ type, (∀ event ∈ events, event.aggregateId = id ∧ event.aggregateType = type) ∧
    ∀ existing ∈ (log.stream id).head?, existing.aggregateType = type

theorem appendError?_eq_none_iff {stream : List StoredEvent} {expected : ExpectedVersion}
    {type : String} : appendError? stream expected type = none ↔
      expected.admits (currentVersion stream) = true ∧
        ∀ existing ∈ stream.head?, existing.aggregateType = type := by
  rw [appendError?]
  cases expected.admits (currentVersion stream) with
  | false => simp
  | true => cases stream.head? <;> simp

/-- A batch that is not empty is stored exactly if the log accepts it. -/
theorem append_eq (log : EventLog) (id : AggregateId) (expected : ExpectedVersion)
    {events : List NewEvent} (hevents : events ≠ []) :
    log.Accepts id expected events ∧ log.append id expected events =
        (.ok (number (currentVersion (log.stream id) + 1) events),
          log.extend id (number (currentVersion (log.stream id) + 1) events)) ∨
      ¬log.Accepts id expected events ∧ ∃ error, log.append id expected events = (.error error, log) := by
  cases events with
  | nil => contradiction
  | cons first rest =>
    have haccepts : log.Accepts id expected (first :: rest) ↔
        batchError? id (first :: rest) = none ∧
          appendError? (log.stream id) expected first.aggregateType = none := by
      rw [batchError?, firstObjection?_eq_none_iff, appendError?_eq_none_iff]
      constructor
      · rintro ⟨hversion, type, hbatch, hstream⟩
        have htype := (hbatch first List.mem_cons_self).2
        subst htype
        exact ⟨hbatch, hversion, hstream⟩
      · rintro ⟨hbatch, hversion, hstream⟩
        exact ⟨hversion, _, hbatch, hstream⟩
    rw [haccepts]
    simp only [append]
    cases batchError? id (first :: rest) with
    | some error => exact .inr ⟨fun haccepted => Option.some_ne_none error haccepted.1, error, rfl⟩
    | none =>
      cases appendError? (log.stream id) expected first.aggregateType with
      | some error => exact .inr ⟨fun haccepted => Option.some_ne_none error haccepted.2, error, rfl⟩
      | none => exact .inl ⟨⟨rfl, rfl⟩, rfl⟩

structure Intact (log : EventLog) : Prop extends log.Consistent where
  own : ∀ id, ∀ stored ∈ log.stream id, stored.aggregateId = id
  uniform : ∀ id, ∃ type, ∀ stored ∈ log.stream id, stored.aggregateType = type

theorem Intact.empty : Intact .empty where
  toConsistent := .empty
  own _ _ hmem := absurd hmem List.not_mem_nil
  uniform _ := ⟨"", fun _ hmem => absurd hmem List.not_mem_nil⟩

theorem Intact.aggregateType_eq {log : EventLog} (h : log.Intact) {id : AggregateId} {type : String}
    (hhead : ∀ existing ∈ (log.stream id).head?, existing.aggregateType = type) :
    ∀ stored ∈ log.stream id, stored.aggregateType = type := by
  obtain ⟨type', huniform⟩ := h.uniform id
  intro stored hmem
  cases hstream : log.stream id with
  | nil =>
    rw [hstream] at hmem
    contradiction
  | cons existing rest =>
    rw [hstream] at hhead huniform hmem
    rw [huniform stored hmem, ← huniform existing List.mem_cons_self]
    exact hhead existing rfl

theorem Intact.append {log : EventLog} (h : log.Intact) (id : AggregateId)
    (expected : ExpectedVersion) (events : List NewEvent) :
    (log.append id expected events).2.Intact := by
  have hcons := h.toConsistent.append id expected events
  refine ⟨hcons, fun other stored => hcons.aggregateId_eq, fun other => ?_⟩
  by_cases hevents : events = []
  · rw [hevents]
    exact h.uniform other
  rcases log.append_eq id expected hevents with
    ⟨⟨_, type, hbatch, hhead⟩, heq⟩ | ⟨_, error, heq⟩
  · rw [heq, stream_extend]
    split
    · refine ⟨type, fun stored hmem => ?_⟩
      rcases List.mem_append.mp hmem with hmem | hmem
      · exact h.aggregateType_eq hhead stored hmem
      · exact aggregateType_of_mem_number (fun event he => (hbatch event he).2) stored hmem
    · exact h.uniform other
  · rw [heq]
    exact h.uniform other

theorem Intact.appendAll {log : EventLog} (h : log.Intact) (requests : List AppendRequest) :
    (log.appendAll requests).Intact := by
  induction requests generalizing log with
  | nil => exact h
  | cons r requests ih => exact ih (h.append r.target r.expected r.events)

/-- The answer to a request and the log it leaves: nothing has changed, or the batch has been
added to its stream and to the commits, numbered from the end of the stream. -/
def Answers (log : EventLog) (r : AppendRequest) :
    Except EventStoreError (List StoredEvent) × EventLog → Prop
  | (.error _, after) => after = log
  | (.ok committed, after) => after.commits = log.commits ++ committed ∧
      (∀ id, after.stream id =
        if id = r.target then log.stream id ++ committed else log.stream id) ∧
      committed.map StoredEvent.content = r.events ∧
      committed.map StoredEvent.sequenceNumber =
        List.range' ((log.stream r.target).length + 1) r.events.length

theorem Consistent.answers_append {log : EventLog} (h : log.Consistent) (r : AppendRequest) :
    Answers log r (log.append r.target r.expected r.events) := by
  have hcases := log.append_cases r.target r.expected r.events
  generalize log.append r.target r.expected r.events = result at hcases
  cases hcases with
  | refused => rfl
  | empty hempty =>
    refine ⟨(List.append_nil _).symm, fun id => ?_, hempty.symm, by rw [hempty]; rfl⟩
    split
    · exact (List.append_nil _).symm
    · rfl
  | stored =>
    refine ⟨rfl, fun id => ?_, content_number _ _, ?_⟩
    · rw [stream_extend]
      split
      · rename_i hid
        rw [hid]
      · rfl
    · rw [h.currentVersion_eq]
      exact sequenceNumber_number _ _

/-- Requests that are carried out one after another, each with its answer. -/
def answers : EventLog → List AppendRequest →
    List (AppendRequest × Except EventStoreError (List StoredEvent))
  | _, [] => []
  | log, r :: requests =>
    let (result, after) := log.append r.target r.expected r.events
    (r, result) :: after.answers requests

/-- A batch that is not empty has been stored in a stream at an exact version. -/
def stores (id : AggregateId) (version : Nat) :
    AppendRequest × Except EventStoreError (List StoredEvent) → Bool
  | (r, .ok _) => r.target = id ∧ r.expected = .exact version ∧ r.events ≠ []
  | (_, .error _) => false

theorem Consistent.version_of_stores {log : EventLog} (h : log.Consistent) {r : AppendRequest}
    {id : AggregateId} {version : Nat}
    (hstores : stores id version (r, (log.append r.target r.expected r.events).1) = true) :
    (log.stream id).length = version ∧
      version < ((log.append r.target r.expected r.events).2.stream id).length := by
  obtain ⟨target, expected, events⟩ := r
  have hcases := log.append_cases target expected events
  dsimp only at hstores ⊢
  generalize log.append target expected events = result at hcases hstores
  cases hcases with
  | refused => contradiction
  | empty hempty => simp [stores, hempty] at hstores
  | stored hevents _ hversion =>
    simp only [stores, decide_eq_true_eq] at hstores
    obtain ⟨rfl, rfl, _⟩ := hstores
    rw [h.currentVersion_eq] at hversion ⊢
    have hlength : (log.stream target).length = version := by
      rw [ExpectedVersion.admits, beq_iff_eq] at hversion
      exact hversion.symm
    have hpos := List.length_pos_of_ne_nil hevents
    rw [stream_extend, if_pos rfl, List.length_append, length_number]
    omega

theorem Consistent.countP_stores_of_passed {log : EventLog} (h : log.Consistent) {id : AggregateId}
    {version : Nat} (hpassed : version < (log.stream id).length) (requests : List AppendRequest) :
    (log.answers requests).countP (stores id version) = 0 := by
  induction requests generalizing log with
  | nil => rfl
  | cons r requests ih =>
    have hlonger := (stream_prefix_append log r.target id r.expected r.events).length_le
    have hfirst : stores id version (r, (log.append r.target r.expected r.events).1) = false := by
      by_contra hstores
      rw [Bool.not_eq_false] at hstores
      have hlength := (h.version_of_stores hstores).1
      omega
    rw [answers, List.countP_cons_of_neg (by simp [hfirst])]
    exact ih (h.append _ _ _) (by omega)

theorem Consistent.countP_stores_le_one {log : EventLog} (h : log.Consistent) (id : AggregateId)
    (version : Nat) (requests : List AppendRequest) :
    (log.answers requests).countP (stores id version) ≤ 1 := by
  induction requests generalizing log with
  | nil => exact Nat.zero_le 1
  | cons r requests ih =>
    have hrest := h.append r.target r.expected r.events
    rw [answers]
    by_cases hstores : stores id version (r, (log.append r.target r.expected r.events).1) = true
    · have hpassed := (h.version_of_stores hstores).2
      refine Nat.le_of_eq ?_
      rw [List.countP_cons_of_pos hstores, hrest.countP_stores_of_passed hpassed, Nat.zero_add]
    · rw [List.countP_cons_of_neg hstores]
      exact ih hrest

/-- After any run of requests, whatever they ask for, the streams are intact; the next request
is refused and leaves the log alone, or it is answered by the batch it has added; and no two
batches of the run were stored in one stream at one exact version. -/
theorem appendAll_intact (requests : List AppendRequest) :
    let log := EventLog.empty.appendAll requests
    log.Intact ∧ (∀ r : AppendRequest, Answers log r (log.append r.target r.expected r.events)) ∧
      ∀ id version, (EventLog.empty.answers requests).countP (stores id version) ≤ 1 := by
  intro log
  have hlog : log.Intact := Intact.empty.appendAll requests
  refine ⟨hlog, hlog.toConsistent.answers_append, ?_⟩
  exact fun id version => Consistent.empty.countP_stores_le_one id version requests

end EventLog

end IdentityLedger
