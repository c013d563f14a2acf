import IdentityLedger.Event.Json
import IdentityLedger.Proofs.EventStore.Log
import IdentityLedger.Proofs.Json.Text
import IdentityLedger.Proofs.Profile.Json
import IdentityLedger.ReadModel.Row

/-!
# Records read back

Every value that is stored or sent decodes from the JSON tree that is written for it: events and
commands, rows of the read model, and the records around events. A record decodes field by
field, each by the law of its own type, and a field that may be missing is written as null
where it is. Only stray times read back as others. The tree is found again from its text, unless
a payload holds what is not.
-/
namespace IdentityLedger
open Json

namespace Json

/-- Null stands for a missing value, so no value may be written as null. -/
theorem option?_option {α : Type} {decode : Json → Option α} {encode : α → Json} {g : α → α}
    (decodes : ∀ a, decode (encode a) = some (g a)) (hnull : ∀ a, encode a ≠ .null)
    (value : Option α) : (Json.option encode value).option? decode = some (value.map g) := by
  cases value with
  | none => rfl
  | some a =>
    have hsome : (encode a).option? decode = (decode (encode a)).map some := by
      cases h : encode a with
      | null => exact absurd h (hnull a)
      | _ => rfl
    simp only [Json.option, hsome, decodes, Option.map_some]

theorem option?_option_self {α : Type} {decode : Json → Option α} {encode : α → Json}
    (decodes : ∀ a, decode (encode a) = some a) (hnull : ∀ a, encode a ≠ .null) (value : Option α) :
    (Json.option encode value).option? decode = some value := by
  rw [option?_option (g := id) decodes hnull, Option.map_id, id]

theorem natBelow?_nat {bound n : Nat} (h : n < bound) : natBelow? bound (.nat n) = some n := by
  have hcast : (0 : Int) ≤ n ∧ (n : Int) < bound := by omega
  simp [natBelow?, Json.nat, hcast.2]

/-- A count as it is written, put aside under a name: the bound of counts is too large for a
reduction that meets it. -/
theorem exists_count64 {n : Nat} (h : n < 2 ^ 64) :
    ∃ value, value = Json.nat n ∧ count64? value = some n := by
  refine ⟨_, rfl, ?_⟩
  rw [count64?]
  exact natBelow?_nat h

theorem exists_count32 {n : Nat} (h : n < 2 ^ 32) :
    ∃ value, value = Json.nat n ∧ count32? value = some n := by
  refine ⟨_, rfl, ?_⟩
  rw [count32?]
  exact natBelow?_nat h

theorem string?_str (text : String) : string? (.str text) = some text := rfl

theorem bool?_bool (value : Bool) : bool? (.bool value) = some value := rfl

namespace Record
variable {α β : Type} {members : List (String × Json)} {name : String} {value : Json} {index : Nat}
variable {decode : Json → Option α}

theorem bind_obj {size : Nat} {f : Record → Option β} :
    (ofJson? size (.obj members) >>= f) = f (.named members) := rfl

theorem bind_required {a : α} {f : α → Option β} (hmember : members.lookup name = some value)
    (hvalue : decode value = some a) : ((named members).required? index name decode >>= f) = f a := by
  simp only [required?, slot?, hmember, Option.bind_some, hvalue, Option.bind_eq_bind]

theorem bind_optional {a : Option α} {f : Option α → Option β}
    (hmember : members.lookup name = some value) (hvalue : value.option? decode = some a) :
    ((named members).optional? index name decode >>= f) = f a := by
  simp only [optional?, slot?, hmember, Option.bind_some, hvalue, Option.bind_eq_bind]

end Record

end Json

theorem Uuid.ofJson?_toJson (id : Uuid) : Uuid.ofJson? id.toJson = some id := by
  rw [ofJson?, decode_toJson]
  rfl

theorem AggregateId.ofJson?_toJson (id : AggregateId) : AggregateId.ofJson? id.toJson = some id := by
  rw [ofJson?, decode_toJson]
  rfl

theorem UserId.ofJson?_toJson (id : UserId) : UserId.ofJson? id.toJson = some id := by
  rw [ofJson?, decode_toJson]
  rfl

theorem Timestamp.ofJson?_toJson (time : Timestamp) :
    Timestamp.ofJson? time.toJson = some time.asRead := by
  rw [ofJson?, decode_toJson]
  rfl

theorem IdvLevel.ofJson?_toJson (level : IdvLevel) : IdvLevel.ofJson? level.toJson = some level := by
  rw [ofJson?, decode_toJson]
  rfl

theorem DeactivationReason.ofJson?_toJson (reason : DeactivationReason) :
    DeactivationReason.ofJson? reason.toJson = some reason := by
  rw [ofJson?, decode_toJson]
  rfl

@[simp] theorem Uuid.textual_toJson (id : Uuid) (depth : Nat) : id.toJson.Textual depth :=
  .str id.text

@[simp] theorem AggregateId.textual_toJson (id : AggregateId) (depth : Nat) :
    id.toJson.Textual depth := .str id.text

@[simp] theorem UserId.textual_toJson (id : UserId) (depth : Nat) : id.toJson.Textual depth :=
  .str id.text

@[simp] theorem Timestamp.textual_toJson (time : Timestamp) (depth : Nat) :
    time.toJson.Textual depth := .str time.text

@[simp] theorem IdvLevel.textual_toJson (level : IdvLevel) (depth : Nat) :
    level.toJson.Textual depth := .str level.name

@[simp] theorem DeactivationReason.textual_toJson (reason : DeactivationReason) (depth : Nat) :
    reason.toJson.Textual depth := .str reason.name

theorem ProfileEvent.textual_toJson (event : ProfileEvent) (depth : Nat) :
    event.toJson.Textual (depth + 2) := by
  obtain ⟨profileId, time, change⟩ := event
  refine .variant _ (.obj ?_ ?_)
  · cases change <;> simp [fields]
  · cases change <;> simp [fields, Textual.option]

namespace ProfileRow

def times (row : ProfileRow) : List Timestamp :=
  row.createdAt :: (row.mintedAt.toList ++ row.activatedAt.toList ++ row.verifiedAt.toList ++
    row.holds.times)

/-- The row that is read where this one is written. -/
def asRead (row : ProfileRow) : ProfileRow :=
  { row with
    createdAt := row.createdAt.asRead
    mintedAt := row.mintedAt.map Timestamp.asRead
    activatedAt := row.activatedAt.map Timestamp.asRead
    verifiedAt := row.verifiedAt.map Timestamp.asRead
    holds := row.holds.mapTimes Timestamp.asRead }

theorem asRead_eq_self_iff {row : ProfileRow} : row.asRead = row ↔ ∀ t ∈ row.times, ¬ t.IsStray := by
  obtain ⟨profileId, userId, createdAt, mintedAt, idvLevel, active, activatedAt, verifiedAt,
    deactivationReason, holds⟩ := row
  simp [asRead, times, Holds.mapTimes_eq_self_iff, Option.map_eq_self_iff,
    Timestamp.asRead_eq_self_iff, or_imp, forall_and]

theorem ofJson?_toJson (row : ProfileRow) : ofJson? row.toJson = some row.asRead := by
  have htime := option?_option Timestamp.ofJson?_toJson (by simp [Timestamp.toJson])
  have hlevel := option?_option_self IdvLevel.ofJson?_toJson (by simp [IdvLevel.toJson])
  have hreason :=
    option?_option_self DeactivationReason.ofJson?_toJson (by simp [DeactivationReason.toJson])
  rw [toJson, ofJson?, Record.bind_obj,
    Record.bind_required (by rfl) row.profileId.ofJson?_toJson,
    Record.bind_required (by rfl) row.userId.ofJson?_toJson,
    Record.bind_required (by rfl) row.createdAt.ofJson?_toJson,
    Record.bind_optional (by rfl) (htime row.mintedAt),
    Record.bind_optional (by rfl) (hlevel row.idvLevel),
    Record.bind_required (by rfl) (bool?_bool row.active),
    Record.bind_optional (by rfl) (htime row.activatedAt),
    Record.bind_optional (by rfl) (htime row.verifiedAt),
    Record.bind_optional (by rfl) (hreason row.deactivationReason),
    Record.bind_optional (by rfl) (htime row.holds.gpo),
    Record.bind_optional (by rfl) (htime row.holds.fraudReview),
    Record.bind_optional (by rfl) (htime row.holds.fraudRejection),
    Record.bind_optional (by rfl) (htime row.holds.inPerson)]
  rfl

theorem textual_toJson (row : ProfileRow) (depth : Nat) : row.toJson.Textual (depth + 1) :=
  .obj (by simp) (by simp [Textual.bool, Textual.option])

end ProfileRow

namespace ProfileCommand

/-- A request to act decodes if it names the profile and the time, and its action decodes. -/
theorem record?_obj {members : List (String × Json)} {size index : Nat} {timeName : String}
    {read : Record → Option ProfileAction} {profileId : AggregateId} {action : ProfileAction}
    {time : Timestamp} (hid : members.lookup "profile_id" = some profileId.toJson)
    (htime : members.lookup timeName = some time.toJson) (haction : read (.named members) = some action) :
    record? (.obj members) size index timeName read = some (.act profileId action time.asRead) := by
  simp [record?, Record.ofJson?, Record.required?, Record.slot?, hid, htime, haction,
    AggregateId.ofJson?_toJson, Timestamp.ofJson?_toJson]

theorem required?_map {α : Type} {members : List (String × Json)} {name : String} {index : Nat}
    {decode : Json → Option α} {encode : α → Json} {a : α} {action : α → ProfileAction}
    (hmember : members.lookup name = some (encode a)) (hvalue : decode (encode a) = some a) :
    ((Record.named members).required? index name decode).map action = some (action a) := by
  simp [Record.required?, Record.slot?, hmember, hvalue]

theorem ofJson?_add (profileId : Option AggregateId) (userId : UserId) (time : Timestamp) :
    ofJson? (add profileId userId time).toJson = some (add profileId userId time.asRead) := by
  have hid := option?_option_self AggregateId.ofJson?_toJson (by simp [AggregateId.toJson]) profileId
  rw [toJson, ofJson?]
  simp only [variant, variant?, Option.bind_eq_bind, Option.bind_some]
  rw [add?, Record.bind_obj, Record.bind_optional (by rfl) hid,
    Record.bind_required (by rfl) userId.ofJson?_toJson,
    Record.bind_required (by rfl) time.ofJson?_toJson]
  rfl

theorem ofJson?_toJson (command : ProfileCommand) :
    ofJson? command.toJson = some command.asRead := by
  cases command with
  | add profileId userId time => exact ofJson?_add profileId userId time
  | act profileId action time =>
    rw [toJson, ofJson?]
    simp only [variant, variant?, Option.bind_eq_bind, Option.bind_some]
    cases action with
    | mint level =>
      simp only [variantName]
      exact record?_obj (by rfl) (by rfl) <| required?_map (by rfl) level.ofJson?_toJson
    | deactivate reason =>
      simp only [variantName]
      exact record?_obj (by rfl) (by rfl) <| required?_map (by rfl) reason.ofJson?_toJson
    | supersede supersededBy =>
      simp only [variantName]
      exact record?_obj (by rfl) (by rfl) <| required?_map (by rfl) supersededBy.ofJson?_toJson
    | _ =>
      simp only [variantName]
      exact record?_obj (by rfl) (by rfl) rfl

theorem textual_toJson (command : ProfileCommand) (depth : Nat) :
    command.toJson.Textual (depth + 2) := by
  cases command with
  | add profileId userId time => exact .variant _ (.obj (by simp) (by simp [Textual.option]))
  | act profileId action time =>
    refine .variant _ (.obj ?_ ?_)
    · cases action <;> simp [fields]
    · cases action <;> simp [fields]

end ProfileCommand

namespace NewEvent

/-- The event that is read where this one is written. -/
def asRead (e : NewEvent) : NewEvent := { e with occurredAt := e.occurredAt.asRead }

theorem asRead_eq_self_iff {e : NewEvent} : e.asRead = e ↔ ¬ e.occurredAt.IsStray := by
  obtain ⟨_, _, _, _, _, occurredAt, _⟩ := e
  simp [asRead, Timestamp.asRead_eq_self_iff]

/-- An event whose schema version fits its 32 bits. -/
def Sized (e : NewEvent) : Prop := e.eventVersion < 2 ^ 32

theorem ofJson?_toJson {e : NewEvent} (h : e.Sized) : ofJson? e.toJson = some e.asRead := by
  obtain ⟨version, heq, hversion⟩ := exists_count32 h
  rw [toJson, ← heq, ofJson?, Record.bind_obj,
    Record.bind_required (by rfl) e.eventId.ofJson?_toJson,
    Record.bind_required (by rfl) e.aggregateId.ofJson?_toJson,
    Record.bind_required (by rfl) (string?_str e.aggregateType),
    Record.bind_required (by rfl) (string?_str e.eventType),
    Record.bind_required (by rfl) hversion,
    Record.bind_required (by rfl) e.occurredAt.ofJson?_toJson,
    Record.bind_required (by rfl) (Eq.refl (some e.payload))]
  rfl

theorem textual_toJson {e : NewEvent} {depth : Nat} (h : e.Sized)
    (hpayload : e.payload.Textual depth) : e.toJson.Textual (depth + 1) := by
  have hversion : (Json.nat e.eventVersion).Textual depth := .nat (Nat.lt_trans h (by decide))
  exact .obj (by simp) (by simp [Textual.str, hversion, hpayload])

end NewEvent

namespace StoredEvent

def asRead (e : StoredEvent) : StoredEvent := { e with occurredAt := e.occurredAt.asRead }

theorem asRead_eq_self_iff {e : StoredEvent} : e.asRead = e ↔ ¬ e.occurredAt.IsStray := by
  obtain ⟨_, _, _, _, _, _, occurredAt, _⟩ := e
  simp [asRead, Timestamp.asRead_eq_self_iff]

structure Sized (e : StoredEvent) : Prop where
  sequenceNumber : e.sequenceNumber < 2 ^ 64
  eventVersion : e.eventVersion < 2 ^ 32

theorem ofJson?_toJson {e : StoredEvent} (h : e.Sized) : ofJson? e.toJson = some e.asRead := by
  obtain ⟨number, heq, hnumber⟩ := exists_count64 h.sequenceNumber
  obtain ⟨version, heq', hversion⟩ := exists_count32 h.eventVersion
  rw [toJson, ← heq, ← heq', ofJson?, Record.bind_obj,
    Record.bind_required (by rfl) e.eventId.ofJson?_toJson,
    Record.bind_required (by rfl) e.aggregateId.ofJson?_toJson,
    Record.bind_required (by rfl) (string?_str e.aggregateType),
    Record.bind_required (by rfl) hnumber,
    Record.bind_required (by rfl) (string?_str e.eventType),
    Record.bind_required (by rfl) hversion,
    Record.bind_required (by rfl) e.occurredAt.ofJson?_toJson,
    Record.bind_required (by rfl) (Eq.refl (some e.payload))]
  rfl

theorem textual_toJson {e : StoredEvent} {depth : Nat} (h : e.Sized)
    (hpayload : e.payload.Textual depth) : e.toJson.Textual (depth + 1) := by
  have hnumber : (Json.nat e.sequenceNumber).Textual depth := .nat h.sequenceNumber
  have hversion : (Json.nat e.eventVersion).Textual depth :=
    .nat (Nat.lt_trans h.eventVersion (by decide))
  exact .obj (by simp) (by simp [Textual.str, hnumber, hversion, hpayload])

end StoredEvent

namespace Envelope

def asRead (e : Envelope Json) : Envelope Json := { e with occurredAt := e.occurredAt.asRead }

theorem asRead_eq_self_iff {e : Envelope Json} : e.asRead = e ↔ ¬ e.occurredAt.IsStray := by
  obtain ⟨_, _, _, _, _, occurredAt, _⟩ := e
  simp [asRead, Timestamp.asRead_eq_self_iff]

theorem ofJson?_toJson {e : Envelope Json} (h : e.sequenceNumber < 2 ^ 64) :
    ofJson? (e.toJson id) = some e.asRead := by
  obtain ⟨number, heq, hnumber⟩ := exists_count64 h
  rw [toJson, ← heq, ofJson?, Record.bind_obj,
    Record.bind_required (by rfl) e.eventId.ofJson?_toJson,
    Record.bind_required (by rfl) e.aggregateId.ofJson?_toJson,
    Record.bind_required (by rfl) (string?_str e.aggregateType),
    Record.bind_required (by rfl) hnumber,
    Record.bind_required (by rfl) (string?_str e.eventType),
    Record.bind_required (by rfl) e.occurredAt.ofJson?_toJson,
    Record.bind_required (by rfl) (Eq.refl (some e.payload))]
  rfl

theorem textual_toJson {e : Envelope Json} {depth : Nat} (h : e.sequenceNumber < 2 ^ 64)
    (hpayload : e.payload.Textual depth) : (e.toJson id).Textual (depth + 1) := by
  have hnumber : (Json.nat e.sequenceNumber).Textual depth := .nat h
  exact .obj (by simp) (by simp [Textual.str, hnumber, hpayload])

end Envelope

/-- Wrapping a profile event for a stream keeps what is stored about it, and the event as it
is read. -/
structure NewEvent.Wraps (e : NewEvent) (event : ProfileEvent) : Prop where
  eventType : e.eventType = event.eventType
  eventVersion : e.eventVersion = event.schemaVersion
  occurredAt : e.occurredAt = event.occurredAt
  reads : NewEvent.ofJson? e.toJson = some e.asRead
  numbered (number : Nat) : (e.numbered number).profileEvent? = some event.asRead

theorem NewEvent.wraps_ofProfileEvent (id : AggregateId) (type : String) (eventId : Uuid)
    (event : ProfileEvent) : (ofProfileEvent id type eventId event).Wraps event where
  eventType := rfl
  eventVersion := rfl
  occurredAt := rfl
  reads := ofJson?_toJson (show 1 < 2 ^ 32 by decide)
  numbered _ := by
    have hdecode : ProfileEvent.decode event.toJson = .ok event.asRead := event.decode_toJson
    simp [StoredEvent.profileEvent?, NewEvent.numbered, ofProfileEvent, ProfileEvent.ofJson?, hdecode,
      Except.toOption]

namespace EventLog

/-- A batch of profile events, each with its event id. -/
def wrapAll (id : AggregateId) (type : String) (events : List (Uuid × ProfileEvent)) : List NewEvent :=
  events.map fun e => .ofProfileEvent id type e.1 e.2

theorem profileEvent?_number (id : AggregateId) (type : String) (first : Nat)
    (events : List (Uuid × ProfileEvent)) :
    (number first (wrapAll id type events)).map StoredEvent.profileEvent? =
      events.map fun e => some e.2.asRead := by
  induction events generalizing first with
  | nil => rfl
  | cons e events ih =>
    have hfirst := (NewEvent.wraps_ofProfileEvent id type e.1 e.2).numbered first
    have hrest := ih (first + 1)
    rw [wrapAll] at hrest
    rw [wrapAll, List.map_cons, number, List.map_cons, List.map_cons, hfirst, hrest]

theorem profileEvent?_append {log : EventLog} {id : AggregateId} {type : String}
    {expected : ExpectedVersion} {events : List (Uuid × ProfileEvent)} {stored : List StoredEvent}
    (h : (log.append id expected (wrapAll id type events)).1 = .ok stored) :
    stored.map StoredEvent.profileEvent? = events.map fun e => some e.2.asRead := by
  have hcases := log.append_cases id expected (wrapAll id type events)
  generalize log.append id expected (wrapAll id type events) = result at hcases h
  cases hcases with
  | refused => contradiction
  | empty hempty =>
    obtain rfl : [] = stored := Except.ok.inj h
    obtain rfl : events = [] := List.map_eq_nil_iff.mp hempty
    rfl
  | stored =>
    obtain rfl := Except.ok.inj h
    exact profileEvent?_number id type _ events

end EventLog

/-- Decoding undoes encoding, for every kind of value that is stored or sent: its JSON tree decodes
to the value as it is read, which is another one only where a time is stray, and the tree is
found again from its text. An event can be wrapped for any stream under any event id, and once it
is stored it decodes to itself, as it is read. -/
theorem decoding_undoes_encoding :
    (∀ event : ProfileEvent, ProfileEvent.decode event.toJson = .ok event.asRead ∧
      ofText? event.toJson.text = some event.toJson ∧
      (event.asRead = event ↔ ∀ t ∈ event.times, ¬ t.IsStray)) ∧
    (∀ command : ProfileCommand, ProfileCommand.ofJson? command.toJson = some command.asRead ∧
      ofText? command.toJson.text = some command.toJson ∧
      (command.asRead = command ↔ ¬ command.time.IsStray)) ∧
    (∀ row : ProfileRow, ProfileRow.ofJson? row.toJson = some row.asRead ∧
      ofText? row.toJson.text = some row.toJson ∧
      (row.asRead = row ↔ ∀ t ∈ row.times, ¬ t.IsStray)) ∧
    (∀ e : NewEvent, e.Sized → NewEvent.ofJson? e.toJson = some e.asRead ∧
      (e.payload.Textual (maxDepth - 1) → ofText? e.toJson.text = some e.toJson) ∧
      (e.asRead = e ↔ ¬ e.occurredAt.IsStray)) ∧
    (∀ e : StoredEvent, e.Sized → StoredEvent.ofJson? e.toJson = some e.asRead ∧
      (e.payload.Textual (maxDepth - 1) → ofText? e.toJson.text = some e.toJson) ∧
      (e.asRead = e ↔ ¬ e.occurredAt.IsStray)) ∧
    (∀ e : Envelope Json, e.sequenceNumber < 2 ^ 64 →
      Envelope.ofJson? (e.toJson id) = some e.asRead ∧
      (e.payload.Textual (maxDepth - 1) → ofText? (e.toJson id).text = some (e.toJson id)) ∧
      (e.asRead = e ↔ ¬ e.occurredAt.IsStray)) ∧
    (∀ id type eventId event, (NewEvent.ofProfileEvent id type eventId event).Wraps event) ∧
    ∀ (log : EventLog) id type expected events stored,
      (log.append id expected (EventLog.wrapAll id type events)).1 = .ok stored →
        stored.map StoredEvent.profileEvent? = events.map fun e => some e.2.asRead :=
  ⟨fun event => ⟨event.decode_toJson, ofText?_text (event.textual_toJson 125),
      ProfileEvent.asRead_eq_self_iff⟩,
    fun command => ⟨command.ofJson?_toJson, ofText?_text (command.textual_toJson 125),
      ProfileCommand.asRead_eq_self_iff⟩,
    fun row => ⟨row.ofJson?_toJson, ofText?_text (row.textual_toJson 126),
      ProfileRow.asRead_eq_self_iff⟩,
    fun _ h => ⟨NewEvent.ofJson?_toJson h,
      fun hpayload => ofText?_text (NewEvent.textual_toJson h hpayload), NewEvent.asRead_eq_self_iff⟩,
    fun _ h => ⟨StoredEvent.ofJson?_toJson h,
      fun hpayload => ofText?_text (StoredEvent.textual_toJson h hpayload),
      StoredEvent.asRead_eq_self_iff⟩,
    fun _ h => ⟨Envelope.ofJson?_toJson h,
      fun hpayload => ofText?_text (Envelope.textual_toJson h hpayload), Envelope.asRead_eq_self_iff⟩,
    NewEvent.wraps_ofProfileEvent, fun _ _ _ _ _ _ => EventLog.profileEvent?_append⟩

/-- A leap second of a year before zero. -/
def leapSecond : Timestamp :=
  ⟨⟨-1, 12, 31, by decide, by decide⟩,
    ⟨23, 59, 59, 1000000005, by decide, by decide, by decide, by decide⟩, by decide⟩

/-- A time of five nanoseconds in a leap second of a year before zero, the greatest numbers, and a
store that takes two events of one profile. -/
theorem decoding_undoes_encoding_greatest :
    let event : ProfileEvent := ⟨⟨⟨1⟩⟩, leapSecond, .activated (some leapSecond)⟩
    let new : NewEvent :=
      { NewEvent.ofProfileEvent ⟨⟨1⟩⟩ "" ⟨2⟩ event with eventVersion := 2 ^ 32 - 1 }
    let stored := new.numbered (2 ^ 64 - 1)
    let batch := [(⟨2⟩, event), (⟨3⟩, ⟨⟨⟨1⟩⟩, leapSecond, .retired⟩)]
    let taken := EventLog.number 1 (EventLog.wrapAll ⟨⟨1⟩⟩ "" batch)
    (new.Sized ∧ new.payload.Textual (maxDepth - 1) ∧ ¬ new.occurredAt.IsStray ∧
        NewEvent.ofJson? new.toJson = some new ∧ ofText? new.toJson.text = some new.toJson) ∧
      (stored.Sized ∧ StoredEvent.ofJson? stored.toJson = some stored ∧
        ofText? stored.toJson.text = some stored.toJson) ∧
      (stored.envelope.sequenceNumber < 2 ^ 64 ∧
        Envelope.ofJson? (stored.envelope.toJson id) = some stored.envelope ∧
        ofText? (stored.envelope.toJson id).text = some (stored.envelope.toJson id)) ∧
      (EventLog.empty.append ⟨⟨1⟩⟩ .any (EventLog.wrapAll ⟨⟨1⟩⟩ "" batch)).1 = .ok taken ∧
      taken.map StoredEvent.profileEvent? = batch.map fun e => some e.2 := by
  intro event new stored batch taken
  obtain ⟨hevent, _, _, hnew, hstored, henvelope, _, htaken⟩ := decoding_undoes_encoding
  have hsized : stored.Sized := ⟨show 2 ^ 64 - 1 < 2 ^ 64 by decide, show 2 ^ 32 - 1 < 2 ^ 32 by decide⟩
  have htime : ¬ leapSecond.IsStray := by decide
  have hpayload : new.payload.Textual (maxDepth - 1) := event.textual_toJson 124
  obtain ⟨hnewTree, hnewText, hnewSame⟩ := hnew new hsized.eventVersion
  obtain ⟨hstoredTree, hstoredText, hstoredSame⟩ := hstored stored hsized
  obtain ⟨henvelopeTree, henvelopeText, henvelopeSame⟩ := henvelope stored.envelope hsized.sequenceNumber
  rw [hnewSame.mpr htime] at hnewTree
  rw [hstoredSame.mpr htime] at hstoredTree
  rw [henvelopeSame.mpr htime] at henvelopeTree
  have happend : (EventLog.empty.append ⟨⟨1⟩⟩ .any (EventLog.wrapAll ⟨⟨1⟩⟩ "" batch)).1 = .ok taken := rfl
  have hbatch : taken.map StoredEvent.profileEvent? = batch.map fun e => some e.2 := by
    rw [htaken _ _ _ _ _ _ happend]
    refine List.map_congr_left fun e hmem => congrArg some ((hevent e.2).2.2.mpr ?_)
    simp only [batch, List.mem_cons, List.not_mem_nil, or_false] at hmem
    rcases hmem with rfl | rfl <;> decide
  exact ⟨⟨hsized.eventVersion, hpayload, htime, hnewTree, hnewText hpayload⟩,
    ⟨hsized, hstoredTree, hstoredText hpayload⟩,
    ⟨hsized.sequenceNumber, henvelopeTree, henvelopeText hpayload⟩, happend, hbatch⟩

/-- An event at a stray time decodes to an event of the next second, and the double of a stored
event is not found again from its text. -/
theorem decoding_alters :
    let event : ProfileEvent := ⟨⟨⟨1⟩⟩, .stray, .retired⟩
    let stored : StoredEvent :=
      ⟨⟨2⟩, ⟨⟨1⟩⟩, "t", 1, "x", 1, leapSecond, .float 123456789.12345679⟩
    let double (e : StoredEvent) := e.payload.float?.map Float.toBits
    (ProfileEvent.decode event.toJson).isOk = true ∧ ProfileEvent.decode event.toJson ≠ .ok event ∧
      ((ofText? stored.toJson.text).bind StoredEvent.ofJson?).isSome = true ∧
      ((ofText? stored.toJson.text).bind StoredEvent.ofJson?).bind double ≠ double stored := by
  decide +kernel

end IdentityLedger
