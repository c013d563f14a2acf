import IdentityLedger.Profile.State

/-!
# Histories that fit

An event fits what has happened to a profile if it is the profile's own, creates it if it
is the first one ever and only then, and does not follow its retirement. A history in
which every event fits is what projections can rely on.
-/
namespace IdentityLedger

def ProfileChange.isCreation : ProfileChange → Bool
  | .created _ => true
  | _ => false

namespace Profile

/-- An event that can follow what has happened to a profile. -/
structure Admits (p : Profile) (e : ProfileEvent) : Prop where
  own : e.profileId = p.id
  creation : e.change.isCreation = !p.isCreated
  live : p.retired = false

/-- Each of the events can follow the ones before it. -/
def Fits : Profile → List ProfileEvent → Prop
  | _, [] => True
  | p, e :: events => p.Admits e ∧ (p.apply e).Fits events

theorem fits_append {p : Profile} {first rest : List ProfileEvent} :
    p.Fits (first ++ rest) ↔ p.Fits first ∧ (p.replay first).Fits rest := by
  induction first generalizing p with
  | nil => simp [Fits, replay]
  | cons e first ih =>
    rw [List.cons_append, Fits, Fits, ih, and_assoc]
    rfl

theorem isCreated_apply (p : Profile) (e : ProfileEvent) :
    (p.apply e).isCreated = (p.isCreated || e.change.isCreation) := by
  obtain ⟨profileId, time, change⟩ := e
  cases change <;> simp [apply, Profile.change, isCreated, ProfileChange.isCreation]

theorem isCreated_replay {p : Profile} (h : p.isCreated = true) (events : List ProfileEvent) :
    (p.replay events).isCreated = true := by
  induction events generalizing p with
  | nil => exact h
  | cons e events ih =>
    apply ih
    rw [isCreated_apply, h, Bool.true_or]

theorem eq_nil_of_not_isCreated {id : AggregateId} {history : List ProfileEvent}
    (hfits : (blank id).Fits history) (h : (load id history).isCreated = false) : history = [] := by
  cases history with
  | nil => rfl
  | cons e events =>
    have hfirst : ((blank id).apply e).isCreated = true := by
      rw [isCreated_apply, hfits.1.creation]
      rfl
    have hcreated := isCreated_replay hfirst events
    rw [load, replay, List.foldl_cons, ← replay, hcreated] at h
    contradiction

theorem id_apply {p : Profile} {e : ProfileEvent} (h : e.profileId = p.id) :
    (p.apply e).id = p.id := by
  obtain ⟨profileId, time, change⟩ := e
  cases change with
  | created userId => exact h
  | _ => rfl

theorem id_replay {p : Profile} {events : List ProfileEvent} (h : ∀ e ∈ events, e.profileId = p.id) :
    (p.replay events).id = p.id := by
  induction events generalizing p with
  | nil => rfl
  | cons e events ih =>
    rw [List.forall_mem_cons] at h
    have hid := id_apply h.1
    exact (ih (hid ▸ h.2)).trans hid

/-- A profile has a user exactly when it was created. -/
theorem isSome_userId_replay {p : Profile} (h : p.userId.isSome = p.isCreated)
    (events : List ProfileEvent) : (p.replay events).userId.isSome = (p.replay events).isCreated := by
  induction events generalizing p with
  | nil => exact h
  | cons e events ih =>
    apply ih
    obtain ⟨profileId, time, change⟩ := e
    cases change with
    | created userId => rfl
    | _ => exact h

@[simp] theorem version_replay (p : Profile) (events : List ProfileEvent) :
    (p.replay events).version = p.version + events.length := by
  induction events generalizing p with
  | nil => rfl
  | cons e events ih =>
    rw [replay, List.foldl_cons, ← replay, ih, version_apply, List.length_cons]
    omega

@[simp] theorem uncommitted_replay (p : Profile) (events : List ProfileEvent) :
    (p.replay events).uncommitted = p.uncommitted := by
  induction events generalizing p with
  | nil => rfl
  | cons e events ih =>
    rw [replay, List.foldl_cons, ← replay, ih]
    obtain ⟨profileId, time, change⟩ := e
    cases change <;> rfl

theorem apply_withUncommitted (p : Profile) (buffer : Uncommitted ProfileEvent) (e : ProfileEvent) :
    ({ p with uncommitted := buffer } : Profile).apply e =
      { p.apply e with uncommitted := buffer } := by
  obtain ⟨profileId, time, change⟩ := e
  cases change <;> rfl

theorem replay_withUncommitted (p : Profile) (buffer : Uncommitted ProfileEvent)
    (events : List ProfileEvent) : ({ p with uncommitted := buffer } : Profile).replay events =
      { p.replay events with uncommitted := buffer } := by
  induction events generalizing p with
  | nil => rfl
  | cons e events ih =>
    rw [replay, List.foldl_cons, ← replay, apply_withUncommitted, ih]
    rfl

/-- Recording events evolves the profile as replaying them does, and keeps them for commit. -/
theorem foldl_record (p : Profile) (events : List ProfileEvent) :
    events.foldl record p =
      { p.replay events with uncommitted := ⟨p.uncommitted.events ++ events⟩ } := by
  induction events generalizing p with
  | nil =>
    have happ : p.uncommitted.events ++ [] = p.uncommitted.events := List.append_nil _
    rw [happ]
    rfl
  | cons e events ih =>
    have hstep : p.record e = { p.apply e with uncommitted := p.uncommitted.push e } := rfl
    rw [List.foldl_cons, ih, hstep, replay_withUncommitted]
    simp [replay]

theorem Fits.profileId_eq {p : Profile} {events : List ProfileEvent} (h : p.Fits events) :
    ∀ e ∈ events, e.profileId = p.id := by
  induction events generalizing p with
  | nil => simp
  | cons e events ih =>
    rw [List.forall_mem_cons]
    refine ⟨h.1.own, fun e' hmem => ?_⟩
    rw [← id_apply h.1.own]
    exact ih h.2 e' hmem

theorem Fits.live {p : Profile} {events : List ProfileEvent} (h : p.Fits events)
    (hevents : events ≠ []) : p.retired = false := by
  obtain ⟨e, rest, rfl⟩ := List.exists_cons_of_ne_nil hevents
  exact h.1.live

theorem Fits.id_replay {p : Profile} {events : List ProfileEvent} (h : p.Fits events) :
    (p.replay events).id = p.id := Profile.id_replay h.profileId_eq

end Profile

end IdentityLedger
