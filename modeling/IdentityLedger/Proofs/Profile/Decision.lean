import IdentityLedger.Profile.Decision
import IdentityLedger.Proofs.Profile.History
import Mathlib.Tactic.SplitIfs

/-!
# What a decision yields

Every event that a profile decides is permitted by its state, and so is each event after
the ones before it. A command yields one event; only the two that pass a check and then
activate yield two, the second one on the state that the first one leaves.
-/
namespace IdentityLedger

def ProfileChange.isPass : ProfileChange → Bool
  | .fraudReviewPassed | .inPersonVerificationPassed => true
  | _ => false

/-- The check that an action passes before it activates. -/
def ProfileAction.passed? : ProfileAction → Option ProfileChange
  | activateAfterReview => some .fraudReviewPassed
  | activateAfterInPerson => some .inPersonVerificationPassed
  | _ => none

namespace ProfileCommand

def time : ProfileCommand → Timestamp
  | add _ _ time => time
  | act _ _ time => time

def passed? : ProfileCommand → Option ProfileChange
  | add _ _ _ => none
  | act _ action _ => action.passed?

/-- The form of what a command yields for a profile: one event, or the passed check and the
activation that follows it, of one time. -/
def Yields (command : ProfileCommand) (id : AggregateId) (events : List ProfileEvent) : Prop :=
  match command.passed? with
  | none => ∃ change, change.isPass = false ∧ events = [⟨id, command.time, change⟩]
  | some passed => ∃ verifiedAt,
      events = [⟨id, command.time, passed⟩, ⟨id, command.time, .activated verifiedAt⟩]

end ProfileCommand

namespace Profile
variable {p : Profile} {e : ProfileEvent} {events : List ProfileEvent} {time : Timestamp}

/-- What a change asks of the profile, apart from whether the profile exists. -/
def Allows (p : Profile) (time : Timestamp) : ProfileChange → Prop
  | .created _ => True
  | .minted _ => p.isMinted = false
  | .activated verifiedAt => p.isMinted = true ∧ p.active = false ∧ p.pendingReasons = [] ∧
      p.barredBy = none ∧ verifiedAt = p.verificationTime time
  | .deactivated reason => p.active = false → p.deactivationReason ≠ some reason
  | .retired => p.active = false
  | .gpoVerificationPending => p.holds.gpo = none
  | .gpoVerificationCleared => p.holds.gpo ≠ none
  | .fraudReviewPending => p.holds.fraudReview = none
  | .fraudReviewPassed => p.holds.fraudReview = none → p.holds.fraudRejection ≠ none
  | .fraudRejected => p.holds.fraudRejection = none
  | .inPersonVerificationPending => p.holds.inPerson = none
  | .inPersonVerificationPassed => p.holds.inPerson ≠ none
  | .superseded supersededBy => p.active = true ∧ supersededBy ≠ p.id

/-- An event that can follow what has happened to a profile, and that its state allows. -/
structure Permits (p : Profile) (e : ProfileEvent) : Prop extends p.Admits e where
  allows : p.Allows e.occurredAt e.change

/-- Each of the events is permitted after the ones before it. -/
def Orderly : Profile → List ProfileEvent → Prop
  | _, [] => True
  | p, e :: events => p.Permits e ∧ (p.apply e).Orderly events

theorem orderly_append {first rest : List ProfileEvent} :
    p.Orderly (first ++ rest) ↔ p.Orderly first ∧ (p.replay first).Orderly rest := by
  induction first generalizing p with
  | nil => simp [Orderly, replay]
  | cons e first ih =>
    rw [List.cons_append, Orderly, Orderly, ih, and_assoc]
    rfl

theorem Orderly.permits {before after : List ProfileEvent}
    (h : p.Orderly (before ++ e :: after)) : (p.replay before).Permits e :=
  (orderly_append.mp h).2.1

theorem Orderly.fits (h : p.Orderly events) : p.Fits events := by
  induction events generalizing p with
  | nil => trivial
  | cons e events ih => exact ⟨h.1.toAdmits, ih h.2⟩

theorem permits_event (hcreated : p.isCreated = true) (hlive : p.retired = false)
    {change : ProfileChange} (hchange : change.isCreation = false)
    (hallows : p.Allows time change) : p.Permits (p.event time change) where
  own := rfl
  creation := by rw [hcreated]; exact hchange
  live := hlive
  allows := hallows

theorem eq_of_activation (h : p.activation time = .ok events) :
    p.Allows time (.activated (p.verificationTime time)) ∧
      events = [p.event time (.activated (p.verificationTime time))] := by
  unfold activation at h
  split_ifs at h with hminted hactive hpending
  split at h
  · contradiction
  · rename_i hbarred
    cases h
    exact ⟨⟨by simpa using hminted, by simpa using hactive, by simpa using hpending, hbarred, rfl⟩, rfl⟩

theorem eq_of_activationAfter {passed : ProfileChange} (h : p.activationAfter time passed = .ok events) :
    let q := p.apply (p.event time passed)
    q.Allows time (.activated (q.verificationTime time)) ∧
      events = [p.event time passed, q.event time (.activated (q.verificationTime time))] := by
  intro q
  unfold activationAfter at h
  change (q.activation time).map (p.event time passed :: ·) = .ok events at h
  cases hactivation : q.activation time with
  | error rejection => simp [hactivation, Except.map] at h
  | ok rest =>
    obtain ⟨hallows, hrest⟩ := eq_of_activation hactivation
    simp only [hactivation, Except.map, Except.ok.injEq] at h
    exact ⟨hallows, by rw [← h, hrest]⟩

theorem orderly_activationAfter (hcreated : p.isCreated = true) (hlive : p.retired = false)
    {passed : ProfileChange} (hpass : passed.isPass = true) (hallows : p.Allows time passed)
    (h : p.activationAfter time passed = .ok events) : p.Orderly events := by
  obtain ⟨hactivation, rfl⟩ := eq_of_activationAfter h
  have hnew : passed.isCreation = false := by
    cases passed <;> first | rfl | contradiction
  have hlive' : (p.apply (p.event time passed)).retired = false := by
    cases passed <;> first | exact hlive | contradiction
  have hcreated' : (p.apply (p.event time passed)).isCreated = true := by
    rw [isCreated_apply, hcreated, Bool.true_or]
  exact ⟨permits_event hcreated hlive hnew hallows, permits_event hcreated' hlive' rfl hactivation, trivial⟩

theorem orderly_action (hcreated : p.isCreated = true) (hlive : p.retired = false)
    {action : ProfileAction} (h : p.action time action = .ok events) : p.Orderly events := by
  cases action with
  | activate =>
    obtain ⟨hallows, rfl⟩ := eq_of_activation h
    exact ⟨permits_event hcreated hlive rfl hallows, trivial⟩
  | activateAfterReview =>
    simp only [Profile.action] at h
    split_ifs at h with hguard
    exact orderly_activationAfter hcreated hlive rfl (by simpa [Allows] using hguard) h
  | activateAfterInPerson =>
    simp only [Profile.action] at h
    split_ifs at h with hguard
    exact orderly_activationAfter hcreated hlive rfl (by simpa [Allows] using hguard) h
  | _ =>
    simp only [Profile.action] at h
    split_ifs at h
    cases h
    exact ⟨permits_event hcreated hlive rfl (by simp_all [Allows]), trivial⟩

/-- What a command yields is permitted event by event. Only for a creation nothing has been
checked about retirement. -/
theorem orderly_decide {command : ProfileCommand}
    (hnew : command.target.isCreation = true → p.retired = false)
    (h : p.decide command = .ok events) : p.Orderly events := by
  cases command with
  | add profileId userId time =>
    simp only [decide, creation] at h
    split_ifs at h with hid hcreated
    cases h
    rw [Bool.not_eq_true] at hcreated
    exact ⟨⟨⟨rfl, by rw [hcreated]; rfl, hnew rfl⟩, trivial⟩, trivial⟩
  | act profileId action time =>
    simp only [decide] at h
    split_ifs at h with hid hcreated hretired
    exact orderly_action (by simpa using hcreated) (by simpa using hretired) h

theorem yields_decide {command : ProfileCommand} (h : p.decide command = .ok events) :
    command.Yields p.id events := by
  cases command with
  | add profileId userId time =>
    simp only [decide, creation] at h
    split_ifs at h
    cases h
    exact ⟨_, rfl, rfl⟩
  | act profileId action time =>
    simp only [decide] at h
    split_ifs at h
    cases action with
    | activate => exact ⟨_, rfl, (eq_of_activation h).2⟩
    | activateAfterReview | activateAfterInPerson =>
      simp only [action] at h
      split_ifs at h
      exact ⟨_, (eq_of_activationAfter h).2⟩
    | _ =>
      simp only [action] at h
      split_ifs at h
      cases h
      exact ⟨_, rfl, rfl⟩

theorem ne_nil_of_yields {command : ProfileCommand} {id : AggregateId}
    (h : command.Yields id events) : events ≠ [] := by
  unfold ProfileCommand.Yields at h
  split at h
  · obtain ⟨_, _, rfl⟩ := h
    exact List.cons_ne_nil _ _
  · obtain ⟨_, rfl⟩ := h
    exact List.cons_ne_nil _ _

theorem own_of_yields {command : ProfileCommand} {id : AggregateId}
    (h : command.Yields id events) : ∀ e ∈ events, e.profileId = id := by
  unfold ProfileCommand.Yields at h
  split at h
  · obtain ⟨_, _, rfl⟩ := h
    simp
  · obtain ⟨_, rfl⟩ := h
    simp

theorem execute_eq {command : ProfileCommand} (h : p.decide command = .ok events) :
    p.execute command = (.ok events, events.foldl record p) := by
  simp [execute, handle, h, foldl_record, Uncommitted.size, Except.map]

/-- A rejected command leaves no trace. -/
theorem handle_of_rejected {command : ProfileCommand} {rejection : Rejection}
    (h : p.decide command = .error rejection) :
    p.handle command = (.error rejection.error, p) ∧
      p.execute command = (.error rejection.error, p) := by
  have hhandle : p.handle command = (.error rejection.error, p) := by rw [handle, h]
  exact ⟨hhandle, by rw [execute, hhandle]; rfl⟩

theorem decide_withUncommitted (p : Profile) (buffer : Uncommitted ProfileEvent)
    (command : ProfileCommand) :
    ({ p with uncommitted := buffer } : Profile).decide command = p.decide command := by
  cases command with
  | add => rfl
  | act profileId action time => cases action <;> rfl

theorem not_isCreated_of_decide {command : ProfileCommand}
    (hcreation : command.target.isCreation = true) (h : p.decide command = .ok events) :
    p.isCreated = false := by
  cases command with
  | add profileId userId time =>
    simp only [decide, creation] at h
    split_ifs at h with hid hcreated
    simpa using hcreated
  | act => contradiction

theorem id_of_decide {profileId : AggregateId} {action : ProfileAction}
    (h : p.decide (.act profileId action time) = .ok events) : p.id = profileId := by
  simp only [decide] at h
  split_ifs at h with hid
  exact Classical.not_not.mp hid

theorem target_of_decide {command : ProfileCommand} (h : p.decide command = .ok events) :
    ∀ id, command.target.aggregateId = some id → id = p.id := by
  cases command with
  | add profileId userId time =>
    rintro id ⟨⟩
    simp only [decide, creation] at h
    split_ifs at h with hid
    simpa using hid
  | act profileId action time =>
    rintro id ⟨⟩
    exact (id_of_decide h).symm

theorem fits_decide {command : ProfileCommand}
    (hnew : command.target.isCreation = true → p.retired = false)
    (h : p.decide command = .ok events) : p.Fits events ∧ events ≠ [] :=
  ⟨(orderly_decide hnew h).fits, ne_nil_of_yields (yields_decide h)⟩

end Profile

end IdentityLedger
