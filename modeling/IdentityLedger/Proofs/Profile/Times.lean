import IdentityLedger.Proofs.Calendar.TimestampText
import IdentityLedger.Proofs.Profile.Decision

/-!
# Times are carried along

A profile keeps the times of its events, and a decision hands on the time of its command, but
neither looks at them. So other times in a history are the same other times in its profile, and
a command of another time is decided alike. This is how stray times, which read back as others,
are followed through a history.
-/
namespace IdentityLedger
variable (f : Timestamp → Timestamp)

def ProfileChange.mapTimes : ProfileChange → ProfileChange
  | .activated verifiedAt => .activated (verifiedAt.map f)
  | change => change

def ProfileChange.times : ProfileChange → List Timestamp
  | .activated verifiedAt => verifiedAt.toList
  | _ => []

def Holds.mapTimes (holds : Holds) : Holds :=
  ⟨holds.gpo.map f, holds.fraudReview.map f, holds.fraudRejection.map f, holds.inPerson.map f⟩

def Holds.times (holds : Holds) : List Timestamp :=
  holds.gpo.toList ++ holds.fraudReview.toList ++ holds.fraudRejection.toList ++ holds.inPerson.toList

namespace ProfileEvent

def mapTimes (e : ProfileEvent) : ProfileEvent := ⟨e.profileId, f e.occurredAt, e.change.mapTimes f⟩

def times (e : ProfileEvent) : List Timestamp := e.occurredAt :: e.change.times

end ProfileEvent

def ProfileCommand.mapTime : ProfileCommand → ProfileCommand
  | add profileId userId time => add profileId userId (f time)
  | act profileId action time => act profileId action (f time)

namespace Profile

def mapTimes (p : Profile) : Profile :=
  { p with
    createdAt := p.createdAt.map f
    mintedAt := p.mintedAt.map f
    activatedAt := p.activatedAt.map f
    verifiedAt := p.verifiedAt.map f
    holds := p.holds.mapTimes f
    uncommitted := ⟨p.uncommitted.events.map (ProfileEvent.mapTimes f)⟩ }

variable (p : Profile)

theorem mapTimes_apply (e : ProfileEvent) :
    (p.apply e).mapTimes f = (p.mapTimes f).apply (e.mapTimes f) := by
  obtain ⟨profileId, time, change⟩ := e
  cases change with
  | activated verifiedAt => cases verifiedAt <;> rfl
  | _ => rfl

theorem mapTimes_replay (events : List ProfileEvent) :
    (p.replay events).mapTimes f = (p.mapTimes f).replay (events.map (ProfileEvent.mapTimes f)) := by
  induction events generalizing p with
  | nil => rfl
  | cons e events ih => exact (ih (p.apply e)).trans (by rw [mapTimes_apply]; rfl)

theorem mapTimes_load (id : AggregateId) (history : List ProfileEvent) :
    (load id history).mapTimes f = load id (history.map (ProfileEvent.mapTimes f)) :=
  mapTimes_replay f (blank id) history

@[simp] theorem isCreated_mapTimes : (p.mapTimes f).isCreated = p.isCreated := Option.isSome_map

@[simp] theorem isMinted_mapTimes : (p.mapTimes f).isMinted = p.isMinted := Option.isSome_map

@[simp] theorem pendingReasons_mapTimes : (p.mapTimes f).pendingReasons = p.pendingReasons := by
  simp [pendingReasons, Holds.reasons, mapTimes, Holds.mapTimes]

@[simp] theorem barredBy_mapTimes : (p.mapTimes f).barredBy = p.barredBy := rfl

theorem verificationTime_mapTimes (time : Timestamp) :
    (p.mapTimes f).verificationTime (f time) = (p.verificationTime time).map f := by
  simp [verificationTime, mapTimes, apply_ite (Option.map f)]

abbrev retime (decision : Except Rejection (List ProfileEvent)) : Except Rejection (List ProfileEvent) :=
  decision.map (List.map (ProfileEvent.mapTimes f))

theorem activation_mapTimes (time : Timestamp) :
    (p.mapTimes f).activation (f time) = retime f (p.activation time) := by
  have hactive : (p.mapTimes f).active = p.active := rfl
  simp only [activation, isMinted_mapTimes, hactive, pendingReasons_mapTimes, barredBy_mapTimes,
    verificationTime_mapTimes]
  split_ifs with hminted hactive hpending
  · rfl
  · rfl
  · rfl
  · cases p.barredBy <;> rfl

/-- A passed check carries no time of its own. -/
theorem activationAfter_mapTimes (time : Timestamp) {passed : ProfileChange}
    (hpassed : passed.mapTimes f = passed) :
    (p.mapTimes f).activationAfter (f time) passed = retime f (p.activationAfter time passed) := by
  have hfirst : (p.mapTimes f).event (f time) passed = (p.event time passed).mapTimes f := by
    rw [event, event, ProfileEvent.mapTimes, hpassed]
    rfl
  simp only [activationAfter, hfirst, ← mapTimes_apply, activation_mapTimes]
  cases (p.apply (p.event time passed)).activation time <;> rfl

theorem action_mapTimes (time : Timestamp) (action : ProfileAction) :
    (p.mapTimes f).action (f time) action = retime f (p.action time action) := by
  have hholds : (p.mapTimes f).holds = p.holds.mapTimes f := rfl
  have hactive : (p.mapTimes f).active = p.active := rfl
  have hreason : (p.mapTimes f).deactivationReason = p.deactivationReason := rfl
  have hid : (p.mapTimes f).id = p.id := rfl
  cases action with
  | activate => exact activation_mapTimes f p time
  | activateAfterReview =>
    simp only [Profile.action, hholds, Holds.mapTimes, Option.isNone_map]
    split_ifs
    · rfl
    · exact activationAfter_mapTimes f p time rfl
  | activateAfterInPerson =>
    simp only [Profile.action, hholds, Holds.mapTimes, Option.isNone_map]
    split_ifs
    · rfl
    · exact activationAfter_mapTimes f p time rfl
  | _ =>
    simp only [Profile.action, hholds, hactive, hreason, hid, Holds.mapTimes, Option.isNone_map,
      Option.isSome_map, isMinted_mapTimes]
    split_ifs <;> rfl

theorem decide_mapTimes (command : ProfileCommand) :
    (p.mapTimes f).decide (command.mapTime f) = retime f (p.decide command) := by
  have hid : (p.mapTimes f).id = p.id := rfl
  have hretired : (p.mapTimes f).retired = p.retired := rfl
  cases command with
  | add profileId userId time =>
    simp only [decide, ProfileCommand.mapTime, creation, hid, isCreated_mapTimes]
    split_ifs <;> rfl
  | act profileId action time =>
    simp only [decide, ProfileCommand.mapTime, hid, hretired, isCreated_mapTimes, action_mapTimes]
    split_ifs <;> rfl

end Profile

theorem Option.map_eq_self_iff {α : Type} {g : α → α} {value : Option α} :
    value.map g = value ↔ ∀ a ∈ value.toList, g a = a := by
  cases value <;> simp

theorem Holds.mapTimes_eq_self_iff {holds : Holds} :
    holds.mapTimes f = holds ↔ ∀ t ∈ holds.times, f t = t := by
  obtain ⟨gpo, fraudReview, fraudRejection, inPerson⟩ := holds
  simp [mapTimes, times, Option.map_eq_self_iff, or_imp, forall_and]

namespace ProfileEvent

/-- The event that is read where this one is written. -/
def asRead (e : ProfileEvent) : ProfileEvent := e.mapTimes Timestamp.asRead

theorem asRead_eq_self_iff {e : ProfileEvent} : e.asRead = e ↔ ∀ t ∈ e.times, ¬ t.IsStray := by
  obtain ⟨profileId, time, change⟩ := e
  cases change with
  | activated verifiedAt =>
    simp [asRead, mapTimes, times, ProfileChange.mapTimes, ProfileChange.times,
      Option.map_eq_self_iff, Timestamp.asRead_eq_self_iff]
  | _ =>
    simp [asRead, mapTimes, times, ProfileChange.mapTimes, ProfileChange.times,
      Timestamp.asRead_eq_self_iff]

theorem map_asRead_eq_self {events : List ProfileEvent}
    (h : ∀ e ∈ events, ∀ t ∈ e.times, ¬ t.IsStray) : events.map asRead = events := by
  rw [List.map_congr_left fun e hmem => asRead_eq_self_iff.mpr (h e hmem), List.map_id']

theorem eventType_asRead (e : ProfileEvent) : e.asRead.eventType = e.eventType := by
  obtain ⟨profileId, time, change⟩ := e
  cases change <;> rfl

theorem times_mapTimes (e : ProfileEvent) : (e.mapTimes f).times = e.times.map f := by
  obtain ⟨profileId, time, change⟩ := e
  cases change with
  | activated verifiedAt => cases verifiedAt <;> rfl
  | _ => rfl

theorem asRead_asRead (e : ProfileEvent) : e.asRead.asRead = e.asRead := by
  refine asRead_eq_self_iff.mpr fun t hmem => ?_
  rw [asRead, times_mapTimes] at hmem
  obtain ⟨time, _, rfl⟩ := List.mem_map.mp hmem
  exact time.not_isStray_asRead

end ProfileEvent

/-- The command whose events are what is read of the events of this one. -/
def ProfileCommand.asRead (command : ProfileCommand) : ProfileCommand := command.mapTime Timestamp.asRead

theorem ProfileCommand.asRead_eq_self_iff {command : ProfileCommand} :
    command.asRead = command ↔ ¬ command.time.IsStray := by
  cases command <;> simp [asRead, mapTime, time, Timestamp.asRead_eq_self_iff]

/-- The profile whose history is what is read of the history of this one. -/
def Profile.asRead (p : Profile) : Profile := p.mapTimes Timestamp.asRead

theorem Profile.asRead_load {id : AggregateId} {history : List ProfileEvent} :
    (load id history).asRead = load id (history.map ProfileEvent.asRead) := mapTimes_load _ id history

theorem Profile.decide_asRead {p : Profile} {command : ProfileCommand} {events : List ProfileEvent}
    (hp : p.asRead = p) (h : p.decide command = .ok events) :
    p.decide command.asRead = .ok (events.map ProfileEvent.asRead) := by
  have hdecide := p.decide_mapTimes Timestamp.asRead command
  rw [h] at hdecide
  rw [← hp]
  exact hdecide

end IdentityLedger
