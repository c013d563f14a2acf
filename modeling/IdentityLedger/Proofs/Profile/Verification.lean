import IdentityLedger.Proofs.Profile.Established
import Mathlib.Data.List.Induction

/-!
# Verification

An activation verifies a profile, unless it brings the profile back from a password reset.
That holds of the first activation as well: a profile can be deactivated before it was ever
active. So the activation that counts is the first one with no deactivation between it and
the activation before.
-/
namespace IdentityLedger

def ProfileChange.isDeactivation : ProfileChange → Bool
  | .deactivated _ => true
  | _ => false

theorem ProfileChange.not_isDeactivation_of_isActivation {change : ProfileChange}
    (h : change.isActivation = true) : change.isDeactivation = false := by
  cases change with
  | activated => rfl
  | _ => contradiction

/-- Every deactivation is followed by an activation. -/
def Answered : List ProfileEvent → Prop
  | [] => True
  | e :: events => (e.change.isDeactivation = true →
      ∃ again ∈ events, again.change.isActivation = true) ∧ Answered events

/-- An activation that does not bring its profile back from a deactivation. -/
def Verifies (before : List ProfileEvent) (e : ProfileEvent) : Prop :=
  e.change.isActivation = true ∧ Answered before

/-- The event is the first one in the history that verifies. -/
def FirstVerification (history : List ProfileEvent) (e : ProfileEvent) : Prop :=
  ∃ before after, history = before ++ e :: after ∧ Verifies before e ∧
    ∀ earlier f between, before = earlier ++ f :: between → ¬Verifies earlier f

theorem FirstVerification.append {history : List ProfileEvent} {e : ProfileEvent}
    (h : FirstVerification history e) (rest : List ProfileEvent) :
    FirstVerification (history ++ rest) e := by
  obtain ⟨before, after, rfl, hfirst⟩ := h
  exact ⟨before, after ++ rest, by simp, hfirst⟩

namespace Profile
variable {p : Profile} {e : ProfileEvent} {before after history : List ProfileEvent}
variable {id : AggregateId}

theorem deactivationReason_apply (p : Profile) (e : ProfileEvent) :
    (p.apply e).deactivationReason = none ↔ e.change.isActivation = true ∨
      e.change.isDeactivation = false ∧ p.deactivationReason = none := by
  obtain ⟨profileId, time, change⟩ := e
  cases change <;>
    simp [apply, Profile.change, ProfileChange.isActivation, ProfileChange.isDeactivation]

theorem deactivationReason_replay (p : Profile) (events : List ProfileEvent) :
    (p.replay events).deactivationReason = none ↔ Answered events ∧
      (p.deactivationReason = none ∨ ∃ again ∈ events, again.change.isActivation = true) := by
  induction events generalizing p with
  | nil => simp [replay, Answered]
  | cons e events ih =>
    have hmem : (∃ again ∈ e :: events, again.change.isActivation = true) ↔
        e.change.isActivation = true ∨ ∃ again ∈ events, again.change.isActivation = true := by
      simp
    rw [replay, List.foldl_cons, ← replay, ih, deactivationReason_apply, Answered, hmem]
    by_cases hactivation : e.change.isActivation = true
    · simp [hactivation, ProfileChange.not_isDeactivation_of_isActivation hactivation]
    · by_cases hdeactivation : e.change.isDeactivation = true
      · simp only [hactivation, hdeactivation]
        tauto
      · simp [hactivation, hdeactivation]

theorem deactivationReason_load (id : AggregateId) (history : List ProfileEvent) :
    (load id history).deactivationReason = none ↔ Answered history := by
  rw [load, deactivationReason_replay]
  exact ⟨fun h => h.1, fun h => ⟨h, .inl rfl⟩⟩

theorem load_concat (id : AggregateId) (history : List ProfileEvent) (e : ProfileEvent) :
    load id (history ++ [e]) = (load id history).apply e := replay_append _ _ _

theorem verifiedAt_of_verifies (horderly : (blank id).Orderly (before ++ e :: after))
    (h : Verifies before e) : (load id (before ++ e :: after)).verifiedAt =
      (load id before).verifiedAt.or (some e.occurredAt) := by
  have hbefore := (orderly_append.mp horderly).1
  have hpermits : (load id before).Permits e := horderly.permits
  have hafter : ((load id before).apply e).Orderly after := (orderly_append.mp horderly).2.2
  have hevent : ((load id before).apply e).verifiedAt =
      (load id before).verifiedAt.or (some e.occurredAt) := by
    have hreason := (deactivationReason_load id before).mpr h.2
    rw [verifiedAt_apply hpermits]
    cases (load id before).verifiedAt with
    | none => exact if_pos ⟨h.1, hreason, rfl⟩
    | some time => exact if_neg (by simp)
  have hkeeps := ((Lifecycle.load hbefore).apply hpermits).keeps_replay hafter
  have hload : load id (before ++ e :: after) = ((load id before).apply e).replay after :=
    replay_append _ _ _
  rw [hload]
  cases hverified : (load id before).verifiedAt with
  | none => exact hkeeps.verifiedAt _ (by rw [hevent, hverified]; rfl)
  | some time => exact hkeeps.verifiedAt _ (by rw [hevent, hverified]; rfl)

/-- Only an event that verifies, and is the first to do so, makes a profile verified. -/
theorem exists_firstVerification (horderly : (blank id).Orderly history) {time : Timestamp}
    (h : (load id history).verifiedAt = some time) :
    ∃ e, FirstVerification history e ∧ e.occurredAt = time := by
  induction history using List.reverseRecOn generalizing time with
  | nil => contradiction
  | append_singleton history e ih =>
    have hbefore := (orderly_append.mp horderly).1
    have hpermits : (load id history).Permits e := horderly.permits
    rw [load_concat, verifiedAt_apply hpermits] at h
    split_ifs at h with hverifies
    · obtain ⟨hactivation, hreason, hnone⟩ := hverifies
      have hanswered := (deactivationReason_load id history).mp hreason
      refine ⟨e, ⟨history, [], rfl, ⟨hactivation, hanswered⟩, ?_⟩, Option.some.inj h⟩
      -- an earlier one would have left the profile verified
      rintro earlier f between rfl hearlier
      rw [verifiedAt_of_verifies hbefore hearlier] at hnone
      simp at hnone
    · obtain ⟨first, hfirst, htime⟩ := ih hbefore h
      exact ⟨first, hfirst.append [e], htime⟩

theorem verifiedAt_of_firstVerification (horderly : (blank id).Orderly history)
    (h : FirstVerification history e) : (load id history).verifiedAt = some e.occurredAt := by
  obtain ⟨before, after, rfl, hverifies, hfirst⟩ := h
  have hbefore := (orderly_append.mp horderly).1
  have hnone : (load id before).verifiedAt = none := by
    cases hverified : (load id before).verifiedAt with
    | none => rfl
    | some time =>
      obtain ⟨f, ⟨earlier, between, hsplit, hearlier, _⟩, _⟩ :=
        exists_firstVerification hbefore hverified
      exact absurd hearlier (hfirst earlier f between hsplit)
  rw [verifiedAt_of_verifies horderly hverifies, hnone]
  rfl

end Profile

namespace Session

/-- A profile is verified if some activation in its history does not bring it back from a
deactivation, and the time of its verification is that of the first one which does not. -/
theorem run_verified (id : AggregateId) (calls : List SessionCall) :
    let s := (start id).run calls
    (s.profile.verifiedAt.isSome = true ↔
      ∃ before e after, s.recorded = before ++ e :: after ∧ Verifies before e) ∧
    ∀ time, s.profile.verifiedAt = some time ↔
      ∃ e, FirstVerification s.recorded e ∧ e.occurredAt = time := by
  intro s
  have horderly : (Profile.blank id).Orderly s.recorded := orderly_run id calls
  have hload : s.profile.verifiedAt = (Profile.load id s.recorded).verifiedAt := by
    rw [((Replays.start id).run calls).profile_eq]
  rw [hload]
  refine ⟨⟨fun hverified => ?_, ?_⟩, fun time => ⟨?_, ?_⟩⟩
  · obtain ⟨time, htime⟩ := Option.isSome_iff_exists.mp hverified
    obtain ⟨e, ⟨before, after, hsplit, hverifies, _⟩, _⟩ :=
      Profile.exists_firstVerification horderly htime
    exact ⟨before, e, after, hsplit, hverifies⟩
  · rintro ⟨before, e, after, hsplit, hverifies⟩
    rw [hsplit] at horderly ⊢
    rw [Profile.verifiedAt_of_verifies horderly hverifies]
    simp
  · exact Profile.exists_firstVerification horderly
  · rintro ⟨e, hfirst, rfl⟩
    exact Profile.verifiedAt_of_firstVerification horderly hfirst

/-- A profile is deactivated for a password reset before it was ever active. Its first
activation does not verify it; another one, after it was superseded, does. -/
theorem run_unverified_after_reset :
    let id : AggregateId := ⟨⟨1⟩⟩
    let time (second : Fin 60) : Timestamp := ⟨⟨2021, 3, 4, by decide, by decide⟩,
      ⟨5, 6, second, 8, by decide, by decide, by omega, by decide⟩, by decide⟩
    let s := (start id).run [.handle (.add none ⟨⟨2⟩⟩ (time 0)),
      .handle (.act id (.mint .inPerson) (time 1)),
      .handle (.act id (.deactivate .passwordReset) (time 2)), .handle (.act id .activate (time 3))]
    let t := s.run [.handle (.act id (.supersede ⟨⟨3⟩⟩) (time 4)),
      .handle (.act id .activate (time 5))]
    s.recorded.getLast? = some ⟨id, time 3, .activated none⟩ ∧ s.profile.active = true ∧
      s.profile.verifiedAt = none ∧ t.profile.verifiedAt = some (time 5) := by
  decide +kernel

end Session

end IdentityLedger
