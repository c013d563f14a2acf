import IdentityLedger.Proofs.Profile.Coherent
import IdentityLedger.Proofs.Profile.Session

/-!
# The life of a profile

The fields of a profile are set and cleared one event at a time, and some events clear what
others have set. What they amount to together stays the same: an active profile has passed
everything that activation asks for, a profile is not under fraud review and rejected at
once, and whatever is known about a profile is known from its creation on.
-/
namespace IdentityLedger

theorem Holds.reasons_eq_nil {h : Holds} : h.reasons = [] ↔ h = .none := by
  obtain ⟨gpo, review, rejection, inPerson⟩ := h
  cases gpo <;> cases review <;> cases rejection <;> cases inPerson <;> simp [reasons, none]

namespace Profile

/-- What an active profile is besides. -/
structure InForce (p : Profile) : Prop where
  created : p.isCreated = true
  minted : p.isMinted = true
  live : p.retired = false
  activated : p.activatedAt.isSome = true
  unbarred : p.deactivationReason = none
  free : p.pendingReasons = []

/-- What holds of a profile at every point of its life. -/
structure Lifecycle (p : Profile) : Prop where
  inForce : p.active = true → p.InForce
  fraud : p.holds.fraudReview = none ∨ p.holds.fraudRejection = none
  level : p.mintedAt.isSome = p.idvLevel.isSome
  minted : p.isMinted = true → p.isCreated = true
  user : p.userId.isSome = true ↔ 0 < p.version
  created : p.createdAt.isSome = true ↔ 0 < p.version
  retired : p.retired = true → p.active = false
  buffered : p.uncommitted.size ≤ p.version

variable {p : Profile} {e : ProfileEvent} {events : List ProfileEvent}

theorem Admits.isCreated_apply (h : p.Admits e) : (p.apply e).isCreated = true := by
  rw [Profile.isCreated_apply, h.creation, Bool.or_not_self]

/-- An activation finds nothing that keeps the profile inactive, and other events that leave
a profile active have nothing to change about that. -/
theorem inForce_apply (h : p.active = true → p.InForce) (hpermits : p.Permits e)
    (hactive : (p.apply e).active = true) : (p.apply e).InForce := by
  have hcreated := hpermits.toAdmits.isCreated_apply
  have hallows := hpermits.allows
  obtain ⟨profileId, time, change⟩ := e
  cases change with
  | activated verifiedAt =>
    obtain ⟨hminted, _, hpending, _, _⟩ := hallows
    exact ⟨hcreated, hminted, hpermits.live, rfl, rfl, hpending⟩
  | created userId =>
    have hnew := hpermits.creation
    rw [(h hactive).created] at hnew
    contradiction
  | minted level => exact absurd ((h hactive).minted.symm.trans hallows) nofun
  | gpoVerificationCleared | fraudReviewPassed | inPersonVerificationPassed =>
    have hfree := Holds.reasons_eq_nil.mp (h hactive).free
    simp [Allows, hfree, Holds.none] at hallows
  | _ => simp [apply, change] at hactive

theorem fraud_apply (h : p.holds.fraudReview = none ∨ p.holds.fraudRejection = none) :
    (p.apply e).holds.fraudReview = none ∨ (p.apply e).holds.fraudRejection = none := by
  obtain ⟨profileId, time, change⟩ := e
  cases change with
  | fraudReviewPending => exact .inr rfl
  | fraudRejected | fraudReviewPassed => exact .inl rfl
  | _ => exact h

theorem level_apply (h : p.mintedAt.isSome = p.idvLevel.isSome) :
    (p.apply e).mintedAt.isSome = (p.apply e).idvLevel.isSome := by
  obtain ⟨profileId, time, change⟩ := e
  cases change with
  | minted level => rfl
  | _ => exact h

theorem retired_apply (hlive : p.retired = false) (h : (p.apply e).retired = true) :
    (p.apply e).active = false := by
  obtain ⟨profileId, time, change⟩ := e
  cases change with
  | retired => rfl
  | _ => exact absurd (hlive.symm.trans h) nofun

namespace Lifecycle

theorem blank (id : AggregateId) : (blank id).Lifecycle where
  inForce := nofun
  fraud := .inl rfl
  level := rfl
  minted := nofun
  user := by simp [Profile.blank]
  created := by simp [Profile.blank]
  retired := nofun
  buffered := Nat.le_refl _

theorem isSome_userId (h : p.Lifecycle) : p.userId.isSome = p.isCreated :=
  Bool.eq_iff_iff.mpr (h.user.trans h.created.symm)

theorem apply (h : p.Lifecycle) (hpermits : p.Permits e) : (p.apply e).Lifecycle := by
  have hcreated := hpermits.toAdmits.isCreated_apply
  have huser := (isSome_userId_replay h.isSome_userId [e]).trans hcreated
  have hbuffer : (p.apply e).uncommitted = p.uncommitted := uncommitted_replay p [e]
  exact {
    inForce := inForce_apply h.inForce hpermits
    fraud := fraud_apply h.fraud
    level := level_apply h.level
    minted := fun _ => hcreated
    user := ⟨fun _ => Nat.succ_pos _, fun _ => huser⟩
    created := ⟨fun _ => Nat.succ_pos _, fun _ => hcreated⟩
    retired := retired_apply hpermits.live
    buffered := by
      rw [hbuffer, version_apply]
      exact Nat.le_succ_of_le h.buffered }

theorem replay (h : p.Lifecycle) (horderly : p.Orderly events) : (p.replay events).Lifecycle := by
  induction events generalizing p with
  | nil => exact h
  | cons e events ih => exact ih (h.apply horderly.1) horderly.2

theorem load {id : AggregateId} (horderly : (Profile.blank id).Orderly events) :
    (Profile.load id events).Lifecycle := (blank id).replay horderly

theorem withUncommitted (h : p.Lifecycle) {buffer : Uncommitted ProfileEvent}
    (hbuffer : buffer.size ≤ p.version) : ({ p with uncommitted := buffer } : Profile).Lifecycle where
  inForce hactive :=
    have hforce := h.inForce hactive
    ⟨hforce.created, hforce.minted, hforce.live, hforce.activated, hforce.unbarred, hforce.free⟩
  fraud := h.fraud
  level := h.level
  minted := h.minted
  user := h.user
  created := h.created
  retired := h.retired
  buffered := hbuffer

theorem record (h : p.Lifecycle) (horderly : p.Orderly events) :
    (events.foldl record p).Lifecycle := by
  rw [foldl_record]
  apply (h.replay horderly).withUncommitted
  have hbuffer : p.uncommitted.events.length ≤ p.version := h.buffered
  simpa [Uncommitted.size] using hbuffer

end Lifecycle

end Profile

theorem Session.lifecycle_profile (id : AggregateId) (calls : List SessionCall) :
    ((start id).run calls).profile.Lifecycle := by
  have horderly := orderly_run id calls
  have hreplays := (Replays.start id).run calls
  rw [hreplays.profile_eq]
  refine (Profile.Lifecycle.load horderly).withUncommitted ?_
  rw [Uncommitted.size, List.length_drop, Profile.load, Profile.version_replay]
  exact Nat.le_trans (Nat.sub_le _ _) (Nat.le_add_left _ _)

end IdentityLedger
