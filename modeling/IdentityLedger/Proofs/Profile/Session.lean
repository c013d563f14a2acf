import IdentityLedger.Proofs.Profile.Decision

/-!
# Profiles in use

Commands are carried out on a profile one after the other, and now and then what it has
decided is marked as committed. The profile is at every point the replay of what it has
recorded, and its buffer is the part that was recorded since the last mark.
-/
namespace IdentityLedger

namespace Profile

/-- What carrying out a command does to a profile: it is rejected and nothing has changed,
or it records events of the profile's own in the form of the command. -/
inductive Answers (p : Profile) (command : ProfileCommand) : Prop
  | rejected (error : DomainError) (handled : p.handle command = (.error error, p))
      (executed : p.execute command = (.error error, p))
  | accepted (events : List ProfileEvent) (after : Profile)
      (handled : p.handle command = (.ok (), after))
      (executed : p.execute command = (.ok events, after))
      (yields : command.Yields p.id events)
      (nonempty : events ≠ [])
      (own : ∀ e ∈ events, e.profileId = p.id)
      (buffered : after.uncommitted.events = p.uncommitted.events ++ events)
      (version : after.version = p.version + events.length)

theorem answers (p : Profile) (command : ProfileCommand) : p.Answers command := by
  cases hdecided : p.decide command with
  | error rejection =>
    obtain ⟨hhandle, hexecute⟩ := handle_of_rejected hdecided
    exact .rejected rejection.error hhandle hexecute
  | ok events =>
    have hyields := yields_decide hdecided
    refine .accepted events _ (by rw [handle, hdecided]) (execute_eq hdecided) hyields
      (ne_nil_of_yields hyields) (own_of_yields hyields) ?_ ?_
    · rw [foldl_record]
    · rw [foldl_record]
      exact version_replay p events

end Profile

/-- A profile in use, with all that it has recorded, oldest first, and how much of that was
recorded before the buffer was last cleared. -/
structure Session where
  profile : Profile
  recorded : List ProfileEvent
  marked : Nat

inductive SessionCall
  | handle (command : ProfileCommand)
  | execute (command : ProfileCommand)
  | markCommitted

namespace Session

def start (id : AggregateId) : Session := ⟨.blank id, [], 0⟩

/-- The events that carrying out a command records now. -/
def records (s : Session) (command : ProfileCommand) : List ProfileEvent :=
  match (s.profile.execute command).1 with
  | .ok events => events
  | .error _ => []

def call (s : Session) : SessionCall → Session
  | .handle command =>
    ⟨(s.profile.handle command).2, s.recorded ++ s.records command, s.marked⟩
  | .execute command =>
    ⟨(s.profile.execute command).2, s.recorded ++ s.records command, s.marked⟩
  | .markCommitted => ⟨s.profile.markCommitted, s.recorded, s.recorded.length⟩

def run (s : Session) (calls : List SessionCall) : Session := calls.foldl call s

/-- The profile is the replay of what was recorded on it, with the rest of that after the
last mark still to commit. -/
structure Replays (id : AggregateId) (s : Session) : Prop where
  profile_eq : s.profile =
    { Profile.load id s.recorded with uncommitted := ⟨s.recorded.drop s.marked⟩ }
  own : ∀ e ∈ s.recorded, e.profileId = id
  marked_le : s.marked ≤ s.recorded.length

namespace Replays
variable {id : AggregateId} {s : Session}

theorem start (id : AggregateId) : (Session.start id).Replays id where
  profile_eq := rfl
  own := by simp [Session.start]
  marked_le := Nat.le_refl _

theorem id_eq (h : s.Replays id) : s.profile.id = id := by
  rw [h.profile_eq]
  exact Profile.id_replay h.own

theorem load_eq (h : s.Replays id) : Profile.load id s.recorded = s.profile.markCommitted := by
  have hblank : (Profile.load id s.recorded).uncommitted = .empty := Profile.uncommitted_replay _ _
  rw [h.profile_eq, Profile.markCommitted, ← hblank]

theorem committedVersion_eq (h : s.Replays id) : s.profile.committedVersion = s.marked := by
  have hversion : (Profile.load id s.recorded).version = s.recorded.length := by
    rw [Profile.load, Profile.version_replay]
    exact Nat.zero_add _
  have hmarked := h.marked_le
  rw [h.profile_eq, Profile.committedVersion, hversion, Uncommitted.size, List.length_drop]
  omega

theorem record (h : s.Replays id) {events : List ProfileEvent}
    (hevents : ∀ e ∈ events, e.profileId = id) :
    (⟨events.foldl Profile.record s.profile, s.recorded ++ events, s.marked⟩ : Session).Replays id where
  profile_eq := by
    rw [Profile.foldl_record, h.profile_eq, Profile.replay_withUncommitted, Profile.load,
      Profile.load, Profile.replay_append, List.drop_append_of_le_length h.marked_le]
  own := by
    rw [List.forall_mem_append]
    exact ⟨h.own, hevents⟩
  marked_le := by
    rw [List.length_append]
    exact Nat.le_add_right_of_le h.marked_le

theorem execute (h : s.Replays id) (command : ProfileCommand) :
    (s.call (.execute command)).Replays id := by
  rw [Session.call, Session.records]
  cases hdecided : s.profile.decide command with
  | error rejection =>
    simp only [(Profile.handle_of_rejected hdecided).2, List.append_nil]
    exact h
  | ok events =>
    rw [Profile.execute_eq hdecided]
    apply h.record
    rw [← h.id_eq]
    exact Profile.own_of_yields (Profile.yields_decide hdecided)

theorem markCommitted (h : s.Replays id) : (s.call .markCommitted).Replays id where
  profile_eq := by
    simp only [Session.call, List.drop_length]
    rw [h.profile_eq]
    rfl
  own := h.own
  marked_le := Nat.le_refl _

theorem call (h : s.Replays id) (call : SessionCall) : (s.call call).Replays id := by
  cases call with
  | handle command => exact h.execute command
  | execute command => exact h.execute command
  | markCommitted => exact h.markCommitted

theorem run (h : s.Replays id) (calls : List SessionCall) : (s.run calls).Replays id := by
  induction calls generalizing s with
  | nil => exact h
  | cons call calls ih => exact ih (h.call call)

theorem orderly_records (h : s.Replays id) (horderly : (Profile.blank id).Orderly s.recorded)
    (command : ProfileCommand) : (Profile.blank id).Orderly (s.recorded ++ s.records command) := by
  rw [records]
  cases hdecided : s.profile.decide command with
  | error rejection =>
    rw [(Profile.handle_of_rejected hdecided).2]
    simpa using horderly
  | ok events =>
    rw [Profile.execute_eq hdecided]
    rw [h.profile_eq, Profile.decide_withUncommitted] at hdecided
    refine Profile.orderly_append.mpr ⟨horderly, Profile.orderly_decide (fun hcreation => ?_) hdecided⟩
    -- whoever is created has no history, so it was not retired either
    have hcreated := Profile.not_isCreated_of_decide hcreation hdecided
    rw [Profile.eq_nil_of_not_isCreated horderly.fits hcreated]
    rfl

theorem orderly_call (h : s.Replays id) (horderly : (Profile.blank id).Orderly s.recorded)
    (call : SessionCall) : (Profile.blank id).Orderly (s.call call).recorded := by
  cases call with
  | handle command => exact h.orderly_records horderly command
  | execute command => exact h.orderly_records horderly command
  | markCommitted => exact horderly

theorem orderly_run (h : s.Replays id) (horderly : (Profile.blank id).Orderly s.recorded)
    (calls : List SessionCall) : (Profile.blank id).Orderly (s.run calls).recorded := by
  induction calls generalizing s with
  | nil => exact horderly
  | cons call calls ih => exact ih (h.call call) (h.orderly_call horderly call)

end Replays

theorem orderly_run (id : AggregateId) (calls : List SessionCall) :
    (Profile.blank id).Orderly ((start id).run calls).recorded :=
  (Replays.start id).orderly_run trivial calls

/-- What has been recorded stays so. -/
theorem exists_recorded_run (s : Session) (calls : List SessionCall) :
    ∃ events, (s.run calls).recorded = s.recorded ++ events := by
  induction calls generalizing s with
  | nil => exact ⟨[], (List.append_nil _).symm⟩
  | cons call calls ih =>
    obtain ⟨events, hevents⟩ := ih (s.call call)
    change ∃ events, ((s.call call).run calls).recorded = s.recorded ++ events
    rw [hevents]
    cases call with
    | handle | execute => exact ⟨_, List.append_assoc ..⟩
    | markCommitted => exact ⟨events, rfl⟩

/-- However a profile is used, it is exactly its events: it is their replay, its committed
version counts those before the last mark, and a command is rejected without a trace or
adds events in its form. -/
theorem run_replays (id : AggregateId) (calls : List SessionCall) :
    let s := (start id).run calls
    s.profile.id = id ∧ Profile.load id s.recorded = s.profile.markCommitted ∧
      s.profile.uncommitted.events = s.recorded.drop s.marked ∧
      s.profile.committedVersion = s.marked ∧
      ∀ command, s.profile.Answers command := by
  intro s
  have h : s.Replays id := (Replays.start id).run calls
  refine ⟨h.id_eq, h.load_eq, ?_, h.committedVersion_eq, s.profile.answers⟩
  rw [h.profile_eq]

end Session

end IdentityLedger
