import IdentityLedger.Proofs.Profile.Activity
import Mathlib.Tactic.ByContra

/-!
# Coherent histories

The grammar that decisions leave in a history. It is written down nowhere else: that a
creation comes first follows from what is asked of every command, that a profile steps
down between two activations from what is asked of an activation, and that a passed check
is followed by its activation from the two being decided at once.
-/
namespace IdentityLedger

namespace ProfileChange

def isMinting : ProfileChange → Bool
  | .minted _ => true
  | _ => false

/-- Changes after which a profile is no longer active: it was deactivated or superseded, or
a hold was placed on it. -/
def isDeactivating : ProfileChange → Bool
  | .deactivated _ | .superseded _ => true
  | .gpoVerificationPending | .fraudReviewPending | .fraudRejected
  | .inPersonVerificationPending => true
  | _ => false

end ProfileChange

/-- The history of one profile, as far as it can be told from the events alone. -/
structure Coherent (history : List ProfileEvent) : Prop where
  creation : ∀ before e after, history = before ++ e :: after →
    (e.change.isCreation = true ↔ before = [])
  minting : ∀ before e after, history = before ++ e :: after → e.change.isMinting = true →
    ∀ earlier ∈ before, earlier.change.isMinting = false ∧ earlier.change.isActivation = false
  activation : ∀ before e after, history = before ++ e :: after → e.change.isActivation = true →
    ∃ earlier ∈ before, earlier.change.isMinting = true
  retirement : ∀ before e after, history = before ++ e :: after → e.change = .retired → after = []
  deactivation : ∀ before first between second after,
    history = before ++ first :: (between ++ second :: after) → first.change.isActivation = true →
      second.change.isActivation = true → ∃ e ∈ between, e.change.isDeactivating = true
  pass : ∀ before e after, history = before ++ e :: after → e.change.isPass = true →
    ∃ verifiedAt, after.head? = some ⟨e.profileId, e.occurredAt, .activated verifiedAt⟩

/-- Every passed check is followed at once by an activation of the same profile and time. -/
def Paired : List ProfileEvent → Prop
  | [] => True
  | e :: events => (e.change.isPass = true →
      ∃ verifiedAt, events.head? = some ⟨e.profileId, e.occurredAt, .activated verifiedAt⟩) ∧
    Paired events

theorem Paired.append {first rest : List ProfileEvent} (hfirst : Paired first) (hrest : Paired rest) :
    Paired (first ++ rest) := by
  induction first with
  | nil => exact hrest
  | cons e first ih =>
    refine ⟨fun hpass => ?_, ih hfirst.2⟩
    obtain ⟨verifiedAt, hhead⟩ := hfirst.1 hpass
    refine ⟨verifiedAt, ?_⟩
    change (first ++ rest).head? = _
    rw [List.head?_append, hhead]
    rfl

theorem Paired.of_append {first rest : List ProfileEvent} (h : Paired (first ++ rest)) :
    Paired rest := by
  induction first with
  | nil => exact h
  | cons e first ih => exact ih h.2

/-- The events of a command are paired by its form. -/
theorem paired_of_yields {command : ProfileCommand} {id : AggregateId} {events : List ProfileEvent}
    (h : command.Yields id events) : Paired events := by
  unfold ProfileCommand.Yields at h
  split at h
  · obtain ⟨change, hchange, rfl⟩ := h
    exact ⟨fun hpass => absurd (hchange.symm.trans hpass) nofun, trivial⟩
  · obtain ⟨verifiedAt, rfl⟩ := h
    exact ⟨fun _ => ⟨verifiedAt, rfl⟩, nofun, trivial⟩

namespace Profile
variable {p : Profile} {e : ProfileEvent} {before between after events : List ProfileEvent}

theorem isMinted_apply (p : Profile) (e : ProfileEvent) :
    (p.apply e).isMinted = (p.isMinted || e.change.isMinting) := by
  obtain ⟨profileId, time, change⟩ := e
  cases change <;> simp [apply, Profile.change, isMinted, ProfileChange.isMinting]

theorem isMinted_replay (p : Profile) (events : List ProfileEvent) :
    (p.replay events).isMinted = (p.isMinted || events.any (·.change.isMinting)) := by
  induction events generalizing p with
  | nil => exact (Bool.or_false _).symm
  | cons e events ih => rw [replay, List.foldl_cons, ← replay, ih, isMinted_apply, List.any_cons, Bool.or_assoc]

theorem active_apply (hchange : e.change.isActivation = true) : (p.apply e).active = true := by
  obtain ⟨profileId, time, change⟩ := e
  cases change with
  | activated => rfl
  | _ => contradiction

/-- Whatever happens to an active profile, it stays active unless it is retired or one of
the changes makes it step down. -/
theorem active_replay (hactive : p.active = true) (horderly : p.Orderly events)
    (hevents : ∀ e ∈ events, e.change.isDeactivating = false)
    (hlive : (p.replay events).retired = false) : (p.replay events).active = true := by
  induction events generalizing p with
  | nil => exact hactive
  | cons e events ih =>
    rw [List.forall_mem_cons] at hevents
    refine ih ?_ horderly.2 hevents.2 hlive
    obtain ⟨hpermits, _⟩ := horderly
    obtain ⟨profileId, time, change⟩ := e
    cases change with
    | retired => exact absurd (hactive.symm.trans hpermits.allows) nofun
    | activated | created | minted | gpoVerificationCleared | fraudReviewPassed
    | inPersonVerificationPassed => first | rfl | exact hactive
    | _ => exact absurd hevents.1 nofun

theorem Orderly.isMinted (h : p.Orderly (before ++ e :: after))
    (he : e.change.isActivation = true) : (p.replay before).isMinted = true := by
  have hallows := h.permits.allows
  obtain ⟨profileId, time, change⟩ := e
  cases change with
  | activated => exact hallows.1
  | _ => contradiction

theorem Orderly.not_isMinted (h : p.Orderly (before ++ e :: after))
    (he : e.change.isMinting = true) : (p.replay before).isMinted = false := by
  have hallows := h.permits.allows
  obtain ⟨profileId, time, change⟩ := e
  cases change with
  | minted => exact hallows
  | _ => contradiction

theorem Orderly.not_active (h : p.Orderly (before ++ e :: after))
    (he : e.change.isActivation = true) : (p.replay before).active = false := by
  have hallows := h.permits.allows
  obtain ⟨profileId, time, change⟩ := e
  cases change with
  | activated => exact hallows.2.1
  | _ => contradiction

theorem Orderly.exists_minting {id : AggregateId} (h : (blank id).Orderly (before ++ e :: after))
    (he : e.change.isActivation = true) : ∃ earlier ∈ before, earlier.change.isMinting = true := by
  have hminted := h.isMinted he
  rw [isMinted_replay, Bool.or_eq_true, List.any_eq_true] at hminted
  exact hminted.resolve_left nofun

theorem Orderly.first_minting {id : AggregateId} (h : (blank id).Orderly (before ++ e :: after))
    (he : e.change.isMinting = true) :
    ∀ earlier ∈ before, earlier.change.isMinting = false ∧ earlier.change.isActivation = false := by
  have hminted := h.not_isMinted he
  rw [isMinted_replay, Bool.or_eq_false_iff, List.any_eq_false] at hminted
  intro earlier hmem
  refine ⟨by simpa using hminted.2 earlier hmem, ?_⟩
  by_contra hactivation
  obtain ⟨first, between, rfl⟩ := List.append_of_mem hmem
  rw [List.append_assoc, List.cons_append] at h
  obtain ⟨minting, hminting, hchange⟩ := h.exists_minting (by simpa using hactivation)
  exact hminted.2 minting (List.mem_append_left _ hminting) hchange

theorem Orderly.nil_of_retired (h : p.Orderly (before ++ e :: after)) (he : e.change = .retired) :
    after = [] := by
  cases after with
  | nil => rfl
  | cons next after =>
    rw [← List.singleton_append, ← List.append_assoc] at h
    have hlive := h.permits.live
    obtain ⟨profileId, time, change⟩ := e
    cases he
    rw [replay_append] at hlive
    contradiction

theorem Orderly.deactivates {first second : ProfileEvent}
    (h : p.Orderly (before ++ first :: (between ++ second :: after)))
    (hfirst : first.change.isActivation = true) (hsecond : second.change.isActivation = true) :
    ∃ e ∈ between, e.change.isDeactivating = true := by
  have hrest : ((p.replay before).apply first).Orderly (between ++ second :: after) :=
    (orderly_append.mp h).2.2
  by_contra hnone
  have hevents : ∀ e ∈ between, e.change.isDeactivating = false := by
    intro e hmem
    by_contra hchange
    exact hnone ⟨e, hmem, by simpa using hchange⟩
  have hactive := active_replay (active_apply hfirst) (orderly_append.mp hrest).1 hevents
    hrest.permits.live
  exact absurd (hactive.symm.trans (hrest.not_active hsecond)) nofun

/-- What is permitted event by event, with every pass followed by its activation, is coherent. -/
theorem Orderly.coherent {id : AggregateId} (h : (blank id).Orderly events) (hpaired : Paired events) :
    Coherent events where
  creation before e after hsplit := by
    subst hsplit
    rw [h.permits.creation, Bool.not_eq_true']
    refine ⟨eq_nil_of_not_isCreated (orderly_append.mp h).1.fits, ?_⟩
    rintro rfl
    rfl
  minting before e after hsplit := by
    subst hsplit
    exact h.first_minting
  activation before e after hsplit := by
    subst hsplit
    exact h.exists_minting
  retirement before e after hsplit := by
    subst hsplit
    exact h.nil_of_retired
  deactivation before first between second after hsplit := by
    subst hsplit
    exact h.deactivates
  pass before e after hsplit := by
    subst hsplit
    exact hpaired.of_append.1

end Profile

end IdentityLedger
