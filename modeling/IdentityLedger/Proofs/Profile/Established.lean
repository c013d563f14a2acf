import IdentityLedger.Proofs.Profile.Lifecycle

/-!
# What is established about a profile

An event could overwrite whatever is known about a profile. None does: a change that would
establish something anew is permitted only where it has not been established yet. What is
left to change is the time of the last activation, until the profile is retired; then every
command is rejected.
-/
namespace IdentityLedger

/-- A value that was given stays as it is. -/
def Lasts {α : Type} (before after : Option α) : Prop := ∀ a, before = some a → after = some a

namespace Lasts
variable {α : Type} {a b c : Option α}

theorem refl (a : Option α) : Lasts a a := fun _ h => h

theorem trans (hab : Lasts a b) (hbc : Lasts b c) : Lasts a c := fun x h => hbc x (hab x h)

theorem of_not_given (h : ¬a.isSome = true) : Lasts a b :=
  fun x hx => absurd (by rw [hx]; rfl) h

end Lasts

namespace Profile
variable {p q r : Profile} {e : ProfileEvent} {events : List ProfileEvent}

/-- What was established about `p` still holds of `q`. -/
structure Keeps (q p : Profile) : Prop where
  id : q.id = p.id
  userId : Lasts p.userId q.userId
  createdAt : Lasts p.createdAt q.createdAt
  mintedAt : Lasts p.mintedAt q.mintedAt
  idvLevel : Lasts p.idvLevel q.idvLevel
  verifiedAt : Lasts p.verifiedAt q.verifiedAt
  activatedAt : p.activatedAt.isSome = true → q.activatedAt.isSome = true
  retired : p.retired = true → q.retired = true

theorem Keeps.refl (p : Profile) : p.Keeps p :=
  ⟨rfl, .refl _, .refl _, .refl _, .refl _, .refl _, fun h => h, fun h => h⟩

theorem Keeps.trans (hr : r.Keeps q) (hq : q.Keeps p) : r.Keeps p where
  id := hr.id.trans hq.id
  userId := hq.userId.trans hr.userId
  createdAt := hq.createdAt.trans hr.createdAt
  mintedAt := hq.mintedAt.trans hr.mintedAt
  idvLevel := hq.idvLevel.trans hr.idvLevel
  verifiedAt := hq.verifiedAt.trans hr.verifiedAt
  activatedAt h := hr.activatedAt (hq.activatedAt h)
  retired h := hr.retired (hq.retired h)

/-- An activation that is not barred verifies a profile without a deactivation reason, once. -/
theorem verificationTime_eq (hbarred : p.barredBy = none) (time : Timestamp) :
    p.verificationTime time =
      if p.deactivationReason = none ∧ p.verifiedAt = none then some time else none := by
  rw [verificationTime]
  cases hreason : p.deactivationReason with
  | none => cases p.verifiedAt <;> simp
  | some reason =>
    cases reason with
    | passwordReset => simp
    | _ => simp [barredBy, hreason] at hbarred

theorem verifiedAt_apply (hpermits : p.Permits e) : (p.apply e).verifiedAt =
    if e.change.isActivation = true ∧ p.deactivationReason = none ∧ p.verifiedAt = none then
      some e.occurredAt else p.verifiedAt := by
  have hallows := hpermits.allows
  obtain ⟨profileId, time, change⟩ := e
  cases change with
  | activated verifiedAt =>
    obtain ⟨_, _, _, hbarred, hverification⟩ := hallows
    rw [verificationTime_eq hbarred] at hverification
    by_cases hfirst : p.deactivationReason = none ∧ p.verifiedAt = none
    · rw [if_pos hfirst] at hverification
      rw [if_pos ⟨rfl, hfirst⟩, hverification]
      rfl
    · rw [if_neg hfirst] at hverification
      rw [if_neg fun h => hfirst h.2, hverification]
      rfl
  | _ => rfl

theorem Lifecycle.keeps_apply (h : p.Lifecycle) (hpermits : p.Permits e) : (p.apply e).Keeps p := by
  have hid := id_apply hpermits.own
  have hnew := hpermits.creation
  have hallows := hpermits.allows
  have hretired : p.retired = true → (p.apply e).retired = true :=
    fun hretired => absurd (hpermits.live.symm.trans hretired) nofun
  have hverified : Lasts p.verifiedAt (p.apply e).verifiedAt := by
    intro time htime
    rw [verifiedAt_apply hpermits, htime, if_neg (by simp)]
  obtain ⟨profileId, time, change⟩ := e
  cases change with
  | created userId =>
    have hcreated : ¬p.isCreated = true := by simpa [ProfileChange.isCreation] using hnew
    have huser : ¬p.userId.isSome = true := by rwa [h.isSome_userId]
    exact ⟨hid, .of_not_given huser, .of_not_given hcreated, .refl _, .refl _, .refl _, fun h => h, hretired⟩
  | minted level =>
    have hminted : ¬p.isMinted = true := by simpa [Allows] using hallows
    have hlevel : ¬p.idvLevel.isSome = true := by rwa [← h.level]
    exact ⟨hid, .refl _, .refl _, .of_not_given hminted, .of_not_given hlevel, .refl _, fun h => h, hretired⟩
  | activated verifiedAt =>
    exact ⟨hid, .refl _, .refl _, .refl _, .refl _, hverified, fun _ => rfl, hretired⟩
  | _ => exact ⟨hid, .refl _, .refl _, .refl _, .refl _, .refl _, fun h => h, hretired⟩

theorem Lifecycle.keeps_replay (h : p.Lifecycle) (horderly : p.Orderly events) :
    (p.replay events).Keeps p := by
  induction events generalizing p with
  | nil => exact .refl p
  | cons e events ih =>
    exact (ih (h.apply horderly.1) horderly.2).trans (h.keeps_apply horderly.1)

/-- The time of the last activation among some events. -/
def lastActivation (events : List ProfileEvent) : Option Timestamp :=
  (events.filter fun e => e.change.isActivation).getLast?.map ProfileEvent.occurredAt

theorem activatedAt_apply (p : Profile) (e : ProfileEvent) : (p.apply e).activatedAt =
    if e.change.isActivation = true then some e.occurredAt else p.activatedAt := by
  obtain ⟨profileId, time, change⟩ := e
  cases change <;> rfl

theorem activatedAt_replay (p : Profile) (events : List ProfileEvent) :
    (p.replay events).activatedAt = (lastActivation events).or p.activatedAt := by
  induction events generalizing p with
  | nil => rfl
  | cons e events ih =>
    rw [replay, List.foldl_cons, ← replay, ih, activatedAt_apply, lastActivation, lastActivation]
    by_cases he : e.change.isActivation = true
    · rw [if_pos he, List.filter_cons, if_pos he, List.getLast?_cons]
      cases (events.filter fun e => e.change.isActivation).getLast? <;> rfl
    · rw [if_neg he, List.filter_cons, if_neg he]

theorem isCreated_of_retired {id : AggregateId} (hfits : (blank id).Fits events)
    (hretired : (load id events).retired = true) : (load id events).isCreated = true := by
  by_contra hcreated
  rw [Bool.not_eq_true] at hcreated
  rw [eq_nil_of_not_isCreated hfits hcreated] at hretired
  contradiction

/-- A retired profile rejects every command: it exists already, and does not act any more. -/
theorem exists_rejection_of_retired (hcreated : p.isCreated = true) (hretired : p.retired = true)
    (command : ProfileCommand) : ∃ rejection, p.decide command = .error rejection := by
  cases command with
  | add profileId userId time =>
    rw [decide, creation, if_pos hcreated]
    split_ifs
    · exact ⟨_, rfl⟩
    · exact ⟨_, rfl⟩
  | act profileId action time =>
    by_cases hid : p.id = profileId
    · exact ⟨.retiredProfile, by simp [decide, hid, hcreated, hretired]⟩
    · exact ⟨.otherProfile, by simp [decide, hid]⟩

theorem Orderly.eq_nil_of_retired (h : p.Orderly events) (hretired : p.retired = true) :
    events = [] := by
  cases events with
  | nil => rfl
  | cons e events => exact absurd (h.1.live.symm.trans hretired) nofun

end Profile

namespace Session

namespace Replays
variable {id : AggregateId} {s : Session}

theorem exists_orderly (h : s.Replays id) (horderly : (Profile.blank id).Orderly s.recorded)
    (calls : List SessionCall) : ∃ events, (s.run calls).recorded = s.recorded ++ events ∧
      (Profile.load id s.recorded).Orderly events := by
  obtain ⟨events, hevents⟩ := s.exists_recorded_run calls
  have hafter := h.orderly_run horderly calls
  rw [hevents] at hafter
  exact ⟨events, hevents, (Profile.orderly_append.mp hafter).2⟩

theorem rejects_of_retired (h : s.Replays id) (horderly : (Profile.blank id).Orderly s.recorded)
    (hretired : s.profile.retired = true) (command : ProfileCommand) :
    ∃ error, s.profile.handle command = (.error error, s.profile) ∧
      s.profile.execute command = (.error error, s.profile) := by
  have hcreated : s.profile.isCreated = true := by
    rw [h.profile_eq] at hretired ⊢
    exact Profile.isCreated_of_retired horderly.fits hretired
  obtain ⟨rejection, hrejected⟩ := Profile.exists_rejection_of_retired hcreated hretired command
  exact ⟨_, Profile.handle_of_rejected hrejected⟩

end Replays

/-- However a profile is used on, what was established about it stays, and its time of
activation is that of the last activation recorded. Once it is retired, every command is
rejected, and nothing is recorded any more. -/
theorem run_keeps_established (id : AggregateId) (calls more : List SessionCall) :
    let s := (start id).run calls
    let t := s.run more
    t.profile.Keeps s.profile ∧ ∃ events, t.recorded = s.recorded ++ events ∧
      t.profile.activatedAt = (Profile.lastActivation events).or s.profile.activatedAt ∧
      (s.profile.retired = true → events = [] ∧ ∀ command, ∃ error,
        s.profile.handle command = (.error error, s.profile) ∧
          s.profile.execute command = (.error error, s.profile)) := by
  intro s t
  have hs : s.Replays id := (Replays.start id).run calls
  have ht : t.Replays id := hs.run more
  have hbefore : (Profile.blank id).Orderly s.recorded := orderly_run id calls
  obtain ⟨events, hevents, horderly⟩ := hs.exists_orderly hbefore more
  change t.recorded = s.recorded ++ events at hevents
  have hload : Profile.load id t.recorded = (Profile.load id s.recorded).replay events := by
    rw [hevents, Profile.load, Profile.replay_append, Profile.load]
  have hkeeps := (Profile.Lifecycle.load hbefore).keeps_replay horderly
  refine ⟨?_, events, hevents, ?_, fun hretired => ⟨?_, hs.rejects_of_retired hbefore hretired⟩⟩
  · rw [hs.profile_eq, ht.profile_eq, hload]
    exact ⟨hkeeps.id, hkeeps.userId, hkeeps.createdAt, hkeeps.mintedAt, hkeeps.idvLevel,
      hkeeps.verifiedAt, hkeeps.activatedAt, hkeeps.retired⟩
  · rw [hs.profile_eq, ht.profile_eq, hload]
    exact Profile.activatedAt_replay _ events
  · rw [hs.profile_eq] at hretired
    exact horderly.eq_nil_of_retired hretired

/-- A profile that was active and is retired takes no command, not even a creation. -/
theorem run_keeps_established_retired :
    let id : AggregateId := ⟨⟨1⟩⟩
    let time : Timestamp := ⟨⟨2021, 3, 4, by decide, by decide⟩, ⟨5, 6, 7, 8, by decide, by decide,
      by decide, by decide⟩, by decide⟩
    let s := (start id).run [.handle (.add none ⟨⟨2⟩⟩ time), .handle (.act id (.mint .inPerson) time),
      .handle (.act id .activate time), .markCommitted,
      .handle (.act id (.deactivate .verificationCancelled) time), .handle (.act id .retire time)]
    let t := s.run [.handle (.add none ⟨⟨3⟩⟩ time), .execute (.act id .activate time)]
    s.profile.retired = true ∧ s.profile.verifiedAt = some time ∧ t.profile.Keeps s.profile ∧
      t.recorded = s.recorded ∧
      ∀ command, ∃ error, s.profile.handle command = (.error error, s.profile) := by
  intro id time s t
  have hretired : s.profile.retired = true := by decide +kernel
  obtain ⟨hkeeps, events, hrecorded, _, hfinal⟩ := run_keeps_established id
    [.handle (.add none ⟨⟨2⟩⟩ time), .handle (.act id (.mint .inPerson) time),
      .handle (.act id .activate time), .markCommitted,
      .handle (.act id (.deactivate .verificationCancelled) time), .handle (.act id .retire time)]
    [.handle (.add none ⟨⟨3⟩⟩ time), .execute (.act id .activate time)]
  obtain ⟨rfl, hrejects⟩ := hfinal hretired
  rw [List.append_nil] at hrecorded
  refine ⟨hretired, by decide +kernel, hkeeps, hrecorded, fun command => ?_⟩
  obtain ⟨error, hhandle, _⟩ := hrejects command
  exact ⟨error, hhandle⟩

end Session

end IdentityLedger
