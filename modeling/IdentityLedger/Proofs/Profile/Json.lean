import IdentityLedger.Profile.Json
import IdentityLedger.Proofs.Profile.Times
import IdentityLedger.Proofs.Uuid.Text

/-!
# Stored profile events decode

Every profile event decodes from what is stored for it, with its times as they are read. So
whoever reads a stream that holds only encoded events never meets a payload that does not decode.
-/
namespace IdentityLedger
open Json

theorem Uuid.decode_toJson (id : Uuid) : Uuid.decode id.toJson = .ok id := by
  simp [Uuid.decode, Uuid.toJson, decodeText, Uuid.ofText?_text, Except.mapError]

theorem AggregateId.decode_toJson (id : AggregateId) : AggregateId.decode id.toJson = .ok id := by
  change (Uuid.decode id.uuid.toJson).map AggregateId.mk = _
  rw [Uuid.decode_toJson]
  rfl

theorem UserId.decode_toJson (id : UserId) : UserId.decode id.toJson = .ok id := by
  change (Uuid.decode id.uuid.toJson).map UserId.mk = _
  rw [Uuid.decode_toJson]
  rfl

theorem Timestamp.decode_toJson (time : Timestamp) : Timestamp.decode time.toJson = .ok time.asRead := by
  simp [Timestamp.decode, Timestamp.toJson, decodeText, Timestamp.text, Timestamp.read_chars,
    Except.mapError]

theorem Timestamp.toJson_asRead (time : Timestamp) : time.asRead.toJson = time.toJson := by
  rw [toJson, toJson, text, text, chars_asRead]

theorem IdvLevel.decode_toJson (level : IdvLevel) : IdvLevel.decode level.toJson = .ok level := by
  simp [IdvLevel.decode, IdvLevel.toJson, decodeKeyword, decodeKeyword.keyword,
    IdvLevel.ofName?_name]

theorem DeactivationReason.decode_toJson (reason : DeactivationReason) :
    DeactivationReason.decode reason.toJson = .ok reason := by
  simp [DeactivationReason.decode, DeactivationReason.toJson, decodeKeyword, decodeKeyword.keyword,
    DeactivationReason.ofName?_name]

namespace ProfileEvent

theorem decode_variant {name : String} {decoder : Decoder ProfileEvent} {content : Json}
    (h : variants.lookup name = some decoder) : decode (variant name content) = decoder content := by
  simp [decode, decodeVariant, decodeVariant.content, variant, h, bind, Except.bind]

theorem Fields.required_member {α : Type} {typeName name : String} {size index : Nat}
    {members : List (String × Json)} {decoder : Decoder α} {value : Json} {a : α}
    (hmember : members.lookup name = some value) (hvalue : decoder value = .ok a) :
    (Fields.mk typeName size (.named members)).required index name decoder = .ok a := by
  simp [Fields.required, Record.slot?, hmember, hvalue, Except.mapError]

theorem Fields.required_map {α : Type} {typeName name : String} {size index : Nat}
    {members : List (String × Json)} {decoder : Decoder α} {value : Json} {a : α}
    {change : α → ProfileChange} (hmember : members.lookup name = some value)
    (hvalue : decoder value = .ok a) :
    ((Fields.mk typeName size (.named members)).required index name decoder).map change =
      .ok (change a) := by
  rw [Fields.required_member hmember hvalue]
  rfl

theorem Fields.optional_map {typeName name : String} {size index : Nat}
    {members : List (String × Json)} {time : Option Timestamp}
    {change : Option Timestamp → ProfileChange}
    (hmember : members.lookup name = some (Json.option Timestamp.toJson time)) :
    ((Fields.mk typeName size (.named members)).optional index name Timestamp.decode).map change =
      .ok (change (time.map Timestamp.asRead)) := by
  cases time with
  | none => simp [Fields.optional, Record.slot?, hmember, Json.option, Except.map]
  | some time =>
    have htext : time.toJson = .str time.text := rfl
    have hdecode : Timestamp.decode (.str time.text) = .ok time.asRead := time.decode_toJson
    simp [Fields.optional, Record.slot?, hmember, Json.option, Except.map, htext, hdecode,
      Except.mapError]

/-- A record decodes if it names the profile and the time, and its change decodes. -/
theorem record_decodes {name timeName : String} {size index : Nat}
    {change : Fields → Except Fault ProfileChange} {members : List (String × Json)}
    {event : ProfileEvent} (hid : members.lookup "profile_id" = some event.profileId.toJson)
    (htime : members.lookup timeName = some event.occurredAt.toJson)
    (hchange : change ⟨name, size, .named members⟩ = .ok event.asRead.change) :
    decodeRecord name size (fun fields => do
      let profileId := fields.required 0 "profile_id" AggregateId.decode
      let time := fields.required index timeName Timestamp.decode
      let ((profileId, time), change) ← Fields.both (Fields.both profileId time) (change fields)
      .ok ⟨profileId, time, change⟩) (.obj members) = .ok event.asRead := by
  have hprofile : (Fields.mk name size (.named members)).required 0 "profile_id" AggregateId.decode =
      .ok event.profileId := Fields.required_member hid event.profileId.decode_toJson
  have hwhen : (Fields.mk name size (.named members)).required index timeName Timestamp.decode =
      .ok event.asRead.occurredAt := Fields.required_member htime event.occurredAt.decode_toJson
  simp [decodeRecord, hprofile, hwhen, hchange, Fields.both, bind, Except.bind, Except.mapError]
  rfl

/-- Every profile event decodes from its stored form. -/
theorem decode_toJson (event : ProfileEvent) : decode event.toJson = .ok event.asRead := by
  obtain ⟨profileId, time, change⟩ := event
  cases change with
  | created userId =>
    refine (decode_variant (by rfl)).trans ?_
    exact record_decodes (by rfl) (by rfl) <| Fields.required_map (by rfl) userId.decode_toJson
  | minted level =>
    refine (decode_variant (by rfl)).trans ?_
    exact record_decodes (by rfl) (by rfl) <| Fields.required_map (by rfl) level.decode_toJson
  | activated verifiedAt =>
    refine (decode_variant (by rfl)).trans ?_
    exact record_decodes (by rfl) (by rfl) <| Fields.optional_map (by rfl)
  | deactivated reason =>
    refine (decode_variant (by rfl)).trans ?_
    exact record_decodes (by rfl) (by rfl) <| Fields.required_map (by rfl) reason.decode_toJson
  | superseded supersededBy =>
    refine (decode_variant (by rfl)).trans ?_
    exact record_decodes (by rfl) (by rfl) <| Fields.required_map (by rfl) supersededBy.decode_toJson
  | _ =>
    refine (decode_variant (by rfl)).trans ?_
    exact record_decodes (by rfl) (by rfl) rfl

theorem toJson_asRead (event : ProfileEvent) : event.asRead.toJson = event.toJson := by
  obtain ⟨profileId, time, change⟩ := event
  cases change with
  | activated verifiedAt =>
    cases verifiedAt <;>
      simp [toJson, asRead, mapTimes, ProfileChange.mapTimes, variantName, fields, Json.option,
        Timestamp.toJson_asRead]
  | _ =>
    simp [toJson, asRead, mapTimes, ProfileChange.mapTimes, variantName, fields,
      Timestamp.toJson_asRead]

end ProfileEvent

end IdentityLedger
