import IdentityLedger.Proofs.Profile.Lifecycle

/-!
# The way back

A profile that is not active can be stopped by several things at once, and some of them have
no command that only clears them: whoever waits for a visit while a fraud check is pending
can pass neither of the two first. Another round of the fraud check, a review after a
rejection or a rejection after a review, ends the wait for the visit. So every obstacle has
a remedy that brings up no other obstacle, and then the profile can be activated.
-/
namespace IdentityLedger

namespace Profile

/-- A run of commands that are accepted one after the other. -/
inductive Accepts : Profile → List ProfileCommand → Profile → Prop
  | nil (p : Profile) : p.Accepts [] p
  | cons {p q r : Profile} {command : ProfileCommand} {commands : List ProfileCommand}
      (handled : p.handle command = (.ok (), q)) (rest : q.Accepts commands r) :
      p.Accepts (command :: commands) r

/-- A fraud check is pending, by a review or by a rejection. -/
def underFraudCheck (p : Profile) : Bool :=
  p.holds.fraudReview.isSome || p.holds.fraudRejection.isSome

/-- What no activation gets past, not even one that passes a check. -/
inductive Obstacle where
  | unminted
  | barred
  | gpo
  /-- Waiting for a visit during a fraud check. -/
  | twoChecks
  deriving DecidableEq

namespace Obstacle

def all : List Obstacle := [unminted, barred, gpo, twoChecks]

def stands (p : Profile) : Obstacle → Bool
  | unminted => !p.isMinted
  | barred => p.barredBy.isSome
  | gpo => p.holds.gpo.isSome
  | twoChecks => p.holds.inPerson.isSome && p.underFraudCheck

def remedy (p : Profile) : Obstacle → ProfileAction
  | unminted => .mint .inPerson
  | barred => .deactivate .passwordReset
  | gpo => .releaseGpoHold
  | twoChecks => if p.holds.fraudReview.isSome then .rejectForFraud else .holdForFraudReview

def removal (p : Profile) : Obstacle → ProfileChange
  | unminted => .minted .inPerson
  | barred => .deactivated .passwordReset
  | gpo => .gpoVerificationCleared
  | twoChecks => if p.holds.fraudReview.isSome then .fraudRejected else .fraudReviewPending

theorem mem_all (o : Obstacle) : o ∈ all := by
  cases o <;> simp [all]

end Obstacle

def obstacles (p : Profile) : List Obstacle := Obstacle.all.filter (Obstacle.stands p)

/-- The activation that passes the check that is left. -/
def lastStep (p : Profile) : ProfileAction :=
  if p.underFraudCheck then .activateAfterReview
  else if p.holds.inPerson.isSome then .activateAfterInPerson
  else .activate

/-- A profile that exists, is neither active nor retired, and has come about by its commands. -/
structure Dormant (p : Profile) : Prop where
  lifecycle : p.Lifecycle
  created : p.isCreated = true
  live : p.retired = false
  inactive : p.active = false

variable {p : Profile} {o : Obstacle} {events : List ProfileEvent} {time : Timestamp}
variable {verifiedAt : Option Timestamp}

theorem mem_obstacles : o ∈ p.obstacles ↔ o.stands p = true := by
  simp [obstacles, Obstacle.mem_all]

theorem handle_act (hcreated : p.isCreated = true) (hlive : p.retired = false)
    {action : ProfileAction} (h : p.action time action = .ok events) :
    p.handle (.act p.id action time) = (.ok (), events.foldl record p) := by
  have hdecided : p.decide (.act p.id action time) = .ok events := by
    simpa [decide, hcreated, hlive] using h
  rw [handle, hdecided]

/-- A profile takes the remedy for what stands in its way. -/
theorem action_remedy (h : p.Lifecycle) (hstands : o.stands p = true) (time : Timestamp) :
    p.action time (o.remedy p) = .ok [p.event time (o.removal p)] := by
  cases o with
  | unminted => simpa [Obstacle.stands, Obstacle.remedy, Obstacle.removal, action] using hstands
  | barred =>
    have hreason : p.deactivationReason ≠ some .passwordReset := by
      intro hreset
      simp [Obstacle.stands, barredBy, hreset] at hstands
    simp [Obstacle.remedy, Obstacle.removal, action, hreason]
  | gpo =>
    have hgpo : p.holds.gpo ≠ none := Option.isSome_iff_ne_none.mp hstands
    simp [Obstacle.remedy, Obstacle.removal, action, hgpo]
  | twoChecks =>
    by_cases hreview : p.holds.fraudReview.isSome = true
    · -- whoever is under review was not rejected, so a rejection is still possible
      have hrejection : p.holds.fraudRejection = none := by
        refine h.fraud.resolve_left fun hnone => ?_
        rw [hnone] at hreview
        contradiction
      simp [Obstacle.remedy, Obstacle.removal, action, hreview, hrejection]
    · simp [Obstacle.remedy, Obstacle.removal, action, hreview]

/-- A remedy takes away the obstacle that it is for, and leaves the others as they are. -/
theorem stands_apply_removal (p : Profile) (o other : Obstacle) (time : Timestamp) :
    other.stands (p.apply (p.event time (o.removal p))) = (other.stands p && other != o) := by
  cases o with
  | twoChecks =>
    rw [Obstacle.removal]
    split_ifs
    · cases other <;> simp [Obstacle.stands, apply, change, event, isMinted, barredBy]
    · cases other <;> simp [Obstacle.stands, apply, change, event, isMinted, barredBy]
  | _ =>
    cases other <;>
      simp [Obstacle.stands, Obstacle.removal, apply, change, event, isMinted, barredBy, underFraudCheck]

theorem obstacles_apply_removal (p : Profile) (o : Obstacle) (time : Timestamp) :
    (p.apply (p.event time (o.removal p))).obstacles = p.obstacles.filter (· != o) := by
  rw [obstacles, obstacles, List.filter_filter]
  exact List.filter_congr fun other _ => (stands_apply_removal p o other time).trans (Bool.and_comm _ _)

theorem Dormant.apply_removal (h : p.Dormant) (o : Obstacle) (time : Timestamp) :
    (p.apply (p.event time (o.removal p))).retired = false ∧
      (p.apply (p.event time (o.removal p))).active = false := by
  cases o with
  | unminted | gpo => exact ⟨h.live, h.inactive⟩
  | barred => exact ⟨h.live, rfl⟩
  | twoChecks =>
    rw [Obstacle.removal]
    split_ifs
    · exact ⟨h.live, rfl⟩
    · exact ⟨h.live, rfl⟩

/-- One obstacle less, by a command that is accepted. -/
theorem Dormant.exists_remedied (h : p.Dormant) (hstands : o.stands p = true) (time : Timestamp) :
    ∃ q, p.handle (.act p.id (o.remedy p) time) = (.ok (), q) ∧ q.id = p.id ∧ q.Dormant ∧
      q.obstacles.length < p.obstacles.length := by
  have haction := action_remedy h.lifecycle hstands time
  have horderly := orderly_action h.created h.live haction
  obtain ⟨hlive, hinactive⟩ := h.apply_removal o time
  refine ⟨_, handle_act h.created h.live haction, id_apply rfl,
    ⟨h.lifecycle.record horderly, horderly.1.toAdmits.isCreated_apply, hlive, hinactive⟩, ?_⟩
  change (p.apply (p.event time (o.removal p))).obstacles.length < p.obstacles.length
  rw [obstacles_apply_removal]
  exact List.length_filter_lt_length_iff_exists.mpr ⟨o, mem_obstacles.mpr hstands, by simp⟩

theorem exists_activation (h : p.Allows time (.activated verifiedAt)) :
    ∃ events, p.activation time = .ok events ∧ (p.replay events).active = true := by
  obtain ⟨hminted, hinactive, hfree, hbarred, -⟩ := h
  refine ⟨[p.event time (.activated (p.verificationTime time))], ?_, rfl⟩
  simp [activation, hminted, hinactive, hfree, hbarred]

theorem exists_activationAfter {passed : ProfileChange}
    (h : (p.apply (p.event time passed)).Allows time (.activated verifiedAt)) :
    ∃ events, p.activationAfter time passed = .ok events ∧ (p.replay events).active = true := by
  obtain ⟨events, hactivation, hactive⟩ := exists_activation h
  exact ⟨p.event time passed :: events, by rw [activationAfter, hactivation]; rfl, hactive⟩

theorem action_lastStep (h : p.Dormant) (hnone : p.obstacles = []) (time : Timestamp) :
    ∃ events, p.action time p.lastStep = .ok events ∧ (p.replay events).active = true := by
  have hclear (o : Obstacle) : ¬o.stands p = true := by
    rw [← mem_obstacles, hnone]
    exact List.not_mem_nil
  have hminted : p.isMinted = true := by simpa [Obstacle.stands] using hclear .unminted
  have hbarred : p.barredBy = none := by simpa [Obstacle.stands] using hclear .barred
  have hgpo : p.holds.gpo = none := by simpa [Obstacle.stands] using hclear .gpo
  by_cases hfraud : p.underFraudCheck = true
  · have hvisit : p.holds.inPerson = none := by simpa [Obstacle.stands, hfraud] using hclear .twoChecks
    have hfree : (p.apply (p.event time .fraudReviewPassed)).pendingReasons = [] :=
      Holds.reasons_eq_nil.mpr (by simp [apply, change, event, Holds.none, hgpo, hvisit])
    have hguard : (p.holds.fraudReview.isNone && p.holds.fraudRejection.isNone) = false := by
      simpa [underFraudCheck, or_iff_not_imp_left] using hfraud
    rw [lastStep, if_pos hfraud, action, hguard]
    exact exists_activationAfter ⟨hminted, h.inactive, hfree, hbarred, rfl⟩
  · have hcheck : p.holds.fraudReview = none ∧ p.holds.fraudRejection = none := by
      simpa [underFraudCheck] using hfraud
    rw [lastStep, if_neg hfraud]
    by_cases hvisit : p.holds.inPerson.isSome = true
    · have hfree : (p.apply (p.event time .inPersonVerificationPassed)).pendingReasons = [] :=
        Holds.reasons_eq_nil.mpr (by simp [apply, change, event, Holds.none, hgpo, hcheck])
      have hguard : p.holds.inPerson.isNone = false := by simpa using hvisit
      rw [if_pos hvisit, action, hguard]
      exact exists_activationAfter ⟨hminted, h.inactive, hfree, hbarred, rfl⟩
    · have hfree : p.pendingReasons = [] := by
        simpa [pendingReasons, Holds.reasons, hgpo, hcheck] using hvisit
      rw [if_neg hvisit, action]
      exact exists_activation ⟨hminted, h.inactive, hfree, hbarred, rfl⟩

theorem Dormant.exists_recovery (h : p.Dormant) (time : Timestamp) :
    ∃ commands q, p.Accepts commands q ∧ q.active = true ∧
      commands.length ≤ p.obstacles.length + 1 ∧
      ∀ command ∈ commands, ∃ action, command = .act p.id action time := by
  induction hlength : p.obstacles.length using Nat.strongRecOn generalizing p with
  | ind n ih =>
    subst hlength
    rcases hobstacles : p.obstacles with _ | ⟨o, rest⟩
    · obtain ⟨events, haction, hactive⟩ := action_lastStep h hobstacles time
      have hhandle := handle_act h.created h.live haction
      rw [foldl_record] at hhandle
      exact ⟨_, _, .cons hhandle (.nil _), hactive, Nat.le_refl _, by simp⟩
    · have hstands : o.stands p = true := mem_obstacles.mp (by simp [hobstacles])
      obtain ⟨q, hhandle, hid, hdormant, hfewer⟩ := h.exists_remedied hstands time
      obtain ⟨commands, r, haccepts, hactive, hcount, hown⟩ := ih _ hfewer hdormant rfl
      rw [hid] at hown
      refine ⟨_, r, .cons hhandle haccepts, hactive, ?_, ?_⟩
      · rw [← hobstacles, List.length_cons]
        omega
      · rw [List.forall_mem_cons]
        exact ⟨⟨_, rfl⟩, hown⟩

end Profile

namespace Session

/-- However a profile was used, as long as it exists and is not retired it can become active:
by at most five commands of any one time, addressed to it and accepted in turn. -/
theorem run_recovers (id : AggregateId) (calls : List SessionCall) (time : Timestamp)
    (hcreated : ((start id).run calls).profile.isCreated = true)
    (hlive : ((start id).run calls).profile.retired = false) :
    ∃ commands q, ((start id).run calls).profile.Accepts commands q ∧ q.active = true ∧
      commands.length ≤ 5 ∧
      ∀ command ∈ commands, command.target = .existing id ∧ command.time = time := by
  have hid : ((start id).run calls).profile.id = id := ((Replays.start id).run calls).id_eq
  have hlifecycle := lifecycle_profile id calls
  generalize ((start id).run calls).profile = p at *
  by_cases hactive : p.active = true
  · exact ⟨[], p, .nil p, hactive, Nat.zero_le _, by simp⟩
  · rw [Bool.not_eq_true] at hactive
    obtain ⟨commands, q, haccepts, hactive, hcount, hown⟩ :=
      Profile.Dormant.exists_recovery ⟨hlifecycle, hcreated, hlive, hactive⟩ time
    have hobstacles : p.obstacles.length ≤ 4 := List.length_filter_le _ _
    refine ⟨commands, q, haccepts, hactive, by omega, fun command hmem => ?_⟩
    obtain ⟨action, rfl⟩ := hown command hmem
    rw [hid]
    exact ⟨rfl, rfl⟩

/-- All that can stop a profile at once: it is not minted, barred after an error, waits for a
letter and for a visit, and is under review. -/
theorem run_recovers_from_all :
    let id : AggregateId := ⟨⟨1⟩⟩
    let time : Timestamp := ⟨⟨2021, 3, 4, by decide, by decide⟩, ⟨5, 6, 7, 8, by decide, by decide,
      by decide, by decide⟩, by decide⟩
    let s := (start id).run [.handle (.add none ⟨⟨2⟩⟩ time),
      .handle (.act id (.deactivate .encryptionError) time), .handle (.act id .holdForGpo time),
      .handle (.act id .rejectForFraud time), .markCommitted,
      .handle (.act id .holdForFraudReview time), .handle (.act id .holdForInPerson time)]
    s.profile.obstacles = Profile.Obstacle.all ∧
      ∃ commands q, s.profile.Accepts commands q ∧ q.active = true ∧ commands.length ≤ 5 := by
  intro id time s
  refine ⟨by decide +kernel, ?_⟩
  obtain ⟨commands, q, haccepts, hactive, hcount, _⟩ :=
    run_recovers id _ time (by decide +kernel : s.profile.isCreated = true) (by decide +kernel)
  exact ⟨commands, q, haccepts, hactive, hcount⟩

end Session

end IdentityLedger
