import IdentityLedger.Proofs.Profile.Decision

/-!
# When a profile is active

Only an activation makes a profile active, and only a created profile is ever active. So
a run of events without an activation leaves a profile active for a user only if it was,
and an active profile can always be made to step down for another.
-/
namespace IdentityLedger

def ProfileChange.isActivation : ProfileChange → Bool
  | .activated _ => true
  | _ => false

theorem ProfileChange.not_isCreation_of_isActivation {change : ProfileChange}
    (h : change.isActivation = true) : change.isCreation = false := by
  cases change with
  | activated => rfl
  | _ => contradiction

theorem ProfileCommand.not_isActivation_of_passed {command : ProfileCommand} {passed : ProfileChange}
    (h : command.passed? = some passed) : passed.isActivation = false := by
  rcases command with _ | ⟨_, action, _⟩
  · contradiction
  · cases action with
    | activateAfterReview | activateAfterInPerson =>
      cases h
      rfl
    | _ => contradiction

namespace Profile
variable {p : Profile} {e : ProfileEvent} {events : List ProfileEvent} {userId : UserId}

/-- The profile is active, not retired, and of the user. -/
structure ActiveFor (p : Profile) (userId : UserId) : Prop where
  active : p.active = true
  live : p.retired = false
  user : p.userId = some userId

theorem active_of_apply (hchange : e.change.isActivation = false)
    (h : (p.apply e).active = true) : p.active = true := by
  obtain ⟨profileId, time, change⟩ := e
  cases change with
  | activated => contradiction
  | created | minted | gpoVerificationCleared | fraudReviewPassed | inPersonVerificationPassed =>
    exact h
  | _ => simp [apply, change] at h

theorem userId_apply (hchange : e.change.isCreation = false) : (p.apply e).userId = p.userId := by
  obtain ⟨profileId, time, change⟩ := e
  cases change with
  | created => contradiction
  | _ => rfl

theorem userId_replay (hcreated : p.isCreated = true) (hfits : p.Fits events) :
    (p.replay events).userId = p.userId := by
  induction events generalizing p with
  | nil => rfl
  | cons e events ih =>
    have hcreation : e.change.isCreation = false := by
      rw [hfits.1.creation, hcreated]
      rfl
    have hstill : (p.apply e).isCreated = true := by
      rw [isCreated_apply, hcreated]
      rfl
    exact (ih hstill hfits.2).trans (userId_apply hcreation)

/-- A profile is active only once it has been created. -/
def ActiveOnlyCreated (p : Profile) : Prop := p.active = true → p.isCreated = true

theorem ActiveOnlyCreated.apply (h : p.ActiveOnlyCreated) (hadmits : p.Admits e) :
    (p.apply e).ActiveOnlyCreated := by
  intro hactive
  rw [isCreated_apply, Bool.or_eq_true]
  by_cases hchange : e.change.isActivation = true
  · have hcreation := ProfileChange.not_isCreation_of_isActivation hchange
    rw [hadmits.creation, Bool.not_eq_false'] at hcreation
    exact .inl hcreation
  · rw [Bool.not_eq_true] at hchange
    exact .inl (h (active_of_apply hchange hactive))

theorem ActiveOnlyCreated.replay (h : p.ActiveOnlyCreated) (hfits : p.Fits events) :
    (p.replay events).ActiveOnlyCreated := by
  induction events generalizing p with
  | nil => exact h
  | cons e events ih => exact ih (h.apply hfits.1) hfits.2

theorem activeOnlyCreated_load {id : AggregateId} (hfits : (blank id).Fits events) :
    (load id events).ActiveOnlyCreated := by
  have hblank : (blank id).ActiveOnlyCreated := nofun
  exact hblank.replay hfits

theorem ActiveFor.of_apply (h : (p.apply e).ActiveFor userId) (hcreated : p.ActiveOnlyCreated)
    (hadmits : p.Admits e) (hchange : e.change.isActivation = false) : p.ActiveFor userId where
  active := active_of_apply hchange h.active
  live := hadmits.live
  user := by
    have hcreation : e.change.isCreation = false := by
      rw [hadmits.creation, hcreated (active_of_apply hchange h.active)]
      rfl
    rw [← userId_apply hcreation]
    exact h.user

/-- Without an activation, a profile is active afterwards only if it was before. -/
theorem ActiveFor.of_replay (h : (p.replay events).ActiveFor userId) (hcreated : p.ActiveOnlyCreated)
    (hfits : p.Fits events) (hevents : ∀ e ∈ events, e.change.isActivation = false) :
    p.ActiveFor userId := by
  induction events generalizing p with
  | nil => exact h
  | cons e events ih =>
    rw [List.forall_mem_cons] at hevents
    have hrest := ih h (hcreated.apply hfits.1) hfits.2 hevents.2
    exact hrest.of_apply hcreated hfits.1 hevents.1

/-- What retires a profile also ends its activity, and nothing happens to it afterwards. -/
theorem live_of_active {id : AggregateId} (hfits : (blank id).Fits events)
    (hactive : (load id events).active = true) : (load id events).retired = false := by
  rcases events.eq_nil_or_concat with rfl | ⟨before, e, rfl⟩
  · rfl
  · rw [List.concat_eq_append, fits_append] at hfits
    have hlive := hfits.2.1.live
    rw [List.concat_eq_append, load, replay_append] at hactive ⊢
    obtain ⟨profileId, time, change⟩ := e
    cases change with
    | retired => contradiction
    | _ => exact hlive

theorem filter_isActivation_of_yields {command : ProfileCommand} {id : AggregateId}
    (h : command.Yields id events) : events.filter (fun e => e.change.isActivation) = [] ∨
      ∃ e, events.filter (fun e => e.change.isActivation) = [e] := by
  unfold ProfileCommand.Yields at h
  split at h
  · obtain ⟨change, _, rfl⟩ := h
    cases change with
    | activated => exact .inr ⟨_, rfl⟩
    | _ => exact .inl rfl
  · rename_i passed hpassed
    obtain ⟨verifiedAt, rfl⟩ := h
    rw [List.filter_cons_of_neg (Bool.not_eq_true _ ▸ ProfileCommand.not_isActivation_of_passed hpassed)]
    exact .inr ⟨_, rfl⟩

theorem isCreated_of_activates {command : ProfileCommand} (h : p.decide command = .ok events)
    (hactivates : ∃ e ∈ events, e.change.isActivation = true) : p.isCreated = true := by
  cases command with
  | add profileId userId time =>
    simp only [decide, creation] at h
    split_ifs at h
    cases h
    obtain ⟨e, he, hactivation⟩ := hactivates
    rw [List.mem_singleton.mp he] at hactivation
    contradiction
  | act profileId action time =>
    simp only [decide] at h
    split_ifs at h with _ hcreated
    simpa using hcreated

variable {id supersededBy : AggregateId} {time : Timestamp}

theorem ActiveFor.decide_supersede (h : p.ActiveFor userId) (hcreated : p.ActiveOnlyCreated)
    (hother : supersededBy ≠ p.id) (time : Timestamp) :
    p.decide (.act p.id (.supersede supersededBy) time) =
      .ok [p.event time (.superseded supersededBy)] := by
  have hcreated' := hcreated h.active
  simp [decide, action, hcreated', h.live, h.active, hother]

theorem eq_of_decide_supersede
    (h : p.decide (.act id (.supersede supersededBy) time) = .ok events) :
    events = [p.event time (.superseded supersededBy)] := by
  simp only [decide, action] at h
  split_ifs at h
  cases h
  rfl

end Profile

end IdentityLedger
