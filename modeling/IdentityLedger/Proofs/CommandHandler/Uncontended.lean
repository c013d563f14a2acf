import IdentityLedger.Proofs.CommandHandler.Written
import IdentityLedger.Proofs.EventStore.Integrity

/-!
# Commands that nobody competes with

A handler that is alone with a lawful log accepts whatever the profile accepts: the stream
loads, and the batch lands on the version that was loaded at the first attempt.
-/
namespace IdentityLedger

theorem CommandHandler.handle_of_attempt {ω : Type} [IdSupply ω] [Journal ω] {h : CommandHandler ω}
    {command : ProfileCommand} {id : AggregateId} (htarget : command.target.aggregateId = some id)
    {w : ω} {committed : List StoredEvent} (hattempt : (h.attempt id command w).1 = .ok committed) :
    (h.handle command w).1 = .ok (outcome id 1 committed) := by
  rw [handle, bind_apply]
  simp only [allocate, htarget, pure_apply, bind_apply]
  unfold cycles
  rw [bind_apply, hattempt]
  rfl

namespace EventLog
variable {log : EventLog} {id : AggregateId} {events : List ProfileEvent} {batch : List NewEvent}

/-- What a profile decides is stored if its stream is at the expected version and of profiles.
At another version, the race is lost. -/
theorem Consistent.append_exact (h : log.Consistent)
    (hwraps : List.Forall₂ (Repository.Wraps id) events batch) (hevents : events ≠ [])
    (version : Nat) (htype : version = (log.stream id).length →
      ∀ existing ∈ (log.stream id).head?, existing.aggregateType = Profile.aggregateType) :
    (version = (log.stream id).length ∧ log.append id (.exact version) batch =
        (.ok (number (version + 1) batch), log.extend id (number (version + 1) batch))) ∨
      (version ≠ (log.stream id).length ∧
        ∃ reason, log.append id (.exact version) batch = (.error (.concurrency reason), log)) := by
  have huniform := Repository.uniform_of_wraps hwraps
  have hcurrent := h.currentVersion_eq id
  have hbatch : batch ≠ [] := by
    rintro rfl
    exact hevents (List.forall₂_nil_right_iff.mp hwraps)
  by_cases hversion : version = (log.stream id).length
  · have haccepts : log.Accepts id (.exact version) batch :=
      ⟨by simp [ExpectedVersion.admits, hcurrent, hversion], _, huniform, htype hversion⟩
    rcases log.append_eq id (.exact version) hbatch with ⟨_, happend⟩ | ⟨hrefuses, _⟩
    · rw [hcurrent, ← hversion] at happend
      exact .inl ⟨hversion, happend⟩
    · exact absurd haccepts hrefuses
  · refine .inr ⟨hversion, ?_⟩
    cases batch with
    | nil => contradiction
    | cons first rest =>
      have hsound : batchError? id (first :: rest) = none := by
        rw [batchError?, firstObjection?_eq_none_iff, (huniform first List.mem_cons_self).2]
        exact huniform
      have hadmits : (ExpectedVersion.exact version).admits (currentVersion (log.stream id)) = false := by
        rw [hcurrent]
        exact beq_eq_false_iff_ne.mpr hversion
      simp [EventLog.append, hsound, appendError?, hadmits]

theorem Lawful.aggregateType_eq (h : log.Lawful) (id : AggregateId) :
    ∀ existing ∈ (log.stream id).head?, existing.aggregateType = Profile.aggregateType := by
  intro existing hhead
  obtain ⟨e, _, hholds⟩ := exists_of_mem_right (h.holds id) (List.mem_of_mem_head? hhead)
  exact hholds.aggregateType_eq

end EventLog

namespace Memory
variable {m : Memory} {id : AggregateId}

theorem commit_of_fits (hlog : m.events.Lawful) {events : List ProfileEvent}
    (hfits : (Profile.load id (m.events.history id)).Fits events) (hevents : events ≠ []) :
    ∃ committed, (Repository.commit (EventLog.store eventCell)
      (events.foldl Profile.record (.load id (m.events.history id))) m).1.1 = .ok committed := by
  obtain ⟨batch, w, hbatch, hwraps, hquiet, hcommit⟩ := sharedStore.commit_record m
    (hlog.applyStored_eq id) (hlog.fits id).id_replay hfits hevents
  have hevents' : eventCell.get w = m.events := hquiet.events
  rcases hlog.consistent.append_exact hwraps hevents (m.events.stream id).length
    (fun _ => hlog.aggregateType_eq id) with ⟨_, happend⟩ | ⟨hversion, _⟩
  · simp only [EventLog.store, Cell.run_apply, hevents', happend] at hcommit
    obtain ⟨after, hcommit, _⟩ := hcommit
    exact ⟨_, congrArg Prod.fst hcommit⟩
  · exact absurd rfl hversion

theorem handle_of_decide (hlog : m.events.Lawful) (hstream : m.events.stream id ≠ [])
    (retry : RetryPolicy) {action : ProfileAction} {time : Timestamp} {events : List ProfileEvent}
    (h : (Profile.load id (m.events.history id)).decide (.act id action time) = .ok events) :
    ∃ outcome, (CommandHandler.handle ⟨EventLog.store eventCell, retry⟩ (.act id action time) m).1 =
      .ok outcome := by
  have hexisting : (ProfileCommand.act id action time).target.isCreation ≠ true := nofun
  obtain ⟨hfits, hevents⟩ := Profile.fits_decide (fun hnew => absurd hnew hexisting) h
  obtain ⟨committed, hcommit⟩ := commit_of_fits hlog hfits hevents
  refine ⟨_, CommandHandler.handle_of_attempt rfl (Eq.trans ?_ hcommit)⟩
  have hload : Repository.load (EventLog.store eventCell) id m =
      (.ok (.load id (m.events.history id)), m) := by
    rw [← hlog.replayStream_eq hstream]
    rfl
  have hhandle : (Profile.load id (m.events.history id)).handle (.act id action time) =
      (.ok (), events.foldl Profile.record (.load id (m.events.history id))) := by
    rw [Profile.handle, h]
  rw [CommandHandler.attempt, if_neg hexisting, bind_apply, hload]
  simp only [hhandle, bind_apply, pure_apply]

end Memory

end IdentityLedger
