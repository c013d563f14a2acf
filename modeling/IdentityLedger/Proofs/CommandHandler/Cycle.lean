import IdentityLedger.CommandHandler
import IdentityLedger.Proofs.Profile.Decision
import IdentityLedger.Proofs.Repository

/-!
# What a command does to a shared log

Others may extend the log before each load and each append of a command. Whatever they
add, a command that fails adds nothing of its own, and one that succeeds adds one batch
to its stream, decided on that stream as it was when the batch landed: an append that
expects the loaded version is refused once anything was added in between.
-/
namespace IdentityLedger

/-- A store on a log in a larger state. Before a load and before an append, `others` may
have come in between with requests of their own; `idle` steps touch neither the log nor
what others still want of it. -/
structure SharedStore {ω : Type} [Journal ω] [IdSupply ω] (store : EventStore ω)
    (cell : Cell ω EventLog) (idle others : ω → ω → Prop) : Prop where
  idle_frame : Frame idle
  fresh : ∀ w, idle w (IdSupply.fresh w).2
  others_frame : Frame others
  others_of_idle : ∀ {a b}, idle a b → others a b
  requests : ∀ {a b}, others a b → ∃ requests, cell.get b = (cell.get a).appendAll requests
  set_get : ∀ w, cell.set (cell.get w) w = w
  load : ∀ id w, ∃ w', others w w' ∧
    store.loadStream id w = (.ok ((cell.get w').stream id), w')
  append : ∀ id expected events w, ∃ w', others w w' ∧ store.append id expected events w =
    cell.run (fun log => log.append id expected events) w'

/-- A batch that carries out a command on a stream of a log: it holds what the command
decides on the profile that the stream describes, numbered from where the stream ends. -/
inductive CarriesOut (log : EventLog) (id : AggregateId) (command : ProfileCommand) :
    List StoredEvent → Prop
  | intro (p : Profile) (events : List ProfileEvent) (batch : List NewEvent)
      (replayed : Repository.applyStored (.blank id) (log.stream id) = .ok p)
      (decided : p.decide command = .ok events) (fits : p.Fits events) (nonempty : events ≠ [])
      (wraps : List.Forall₂ (Repository.Wraps id) events batch) :
      CarriesOut log id command (EventLog.number ((log.stream id).length + 1) batch)

/-- What an operation that returns stored events or fails has done to the state: on failure
only others have been at work, on success the batch has landed after them. -/
def Lands {ω ε : Type} (cell : Cell ω EventLog) (idle others : ω → ω → Prop) (id : AggregateId)
    (command : ProfileCommand) (w : ω) : Except ε (List StoredEvent) × ω → Prop
  | (.error _, w') => others w w'
  | (.ok committed, w') =>
    ∃ seen, others w seen ∧ CarriesOut (cell.get seen) id command committed ∧
      idle (cell.set ((cell.get seen).extend id committed) seen) w'

theorem Lands.after {ω ε : Type} [Journal ω] {cell : Cell ω EventLog} {idle others : ω → ω → Prop}
    {id : AggregateId} {command : ProfileCommand} {v w : ω}
    {result : Except ε (List StoredEvent) × ω} (h : Lands cell idle others id command w result)
    (hothers : Frame others) (hvw : others v w) : Lands cell idle others id command v result := by
  obtain ⟨_ | committed, w'⟩ := result
  · exact hothers.trans hvw h
  · obtain ⟨seen, hseen, hlands⟩ := h
    exact ⟨seen, hothers.trans hvw hseen, hlands⟩

/-- What is recorded on a profile with nothing to commit is what there is to commit. -/
theorem Profile.committedVersion_foldl_record {p : Profile} (hnone : p.uncommitted = .empty)
    (events : List ProfileEvent) :
    (events.foldl record p).committedVersion = p.version ∧
      (events.foldl record p).uncommitted.events = events := by
  rw [foldl_record, hnone]
  constructor
  · simp [committedVersion, Uncommitted.size]
  · rfl

namespace SharedStore
variable {ω : Type} [Journal ω] [IdSupply ω] {store : EventStore ω} {cell : Cell ω EventLog}
variable {idle others : ω → ω → Prop}

theorem consistent (hs : SharedStore store cell idle others) {a b : ω} (hab : others a b)
    (h : (cell.get a).Consistent) : (cell.get b).Consistent := by
  obtain ⟨requests, hrequests⟩ := hs.requests hab
  rw [hrequests]
  exact h.appendAll requests

theorem stream_prefix (hs : SharedStore store cell idle others) {a b : ω} (hab : others a b)
    (id : AggregateId) : (cell.get a).stream id <+: (cell.get b).stream id := by
  obtain ⟨requests, hrequests⟩ := hs.requests hab
  rw [hrequests]
  exact EventLog.stream_prefix_appendAll _ _ _

theorem load_spec (hs : SharedStore store cell idle others) (id : AggregateId) (w : ω) :
    ∃ w', others w w' ∧
      Repository.load store id w = (Repository.replayStream id ((cell.get w').stream id), w') := by
  obtain ⟨w', hothers, hload⟩ := hs.load id w
  refine ⟨w', hothers, ?_⟩
  rw [Repository.load, bind_apply, hload]
  rfl

theorem append_spec (hs : SharedStore store cell idle others) {id : AggregateId} (version : Nat)
    {batch : List NewEvent} (hbatch : batch ≠ []) {w : ω} (hcons : (cell.get w).Consistent) :
    (∃ error w', store.append id (.exact version) batch w = (.error error, w') ∧ others w w') ∨
      ∃ seen, others w seen ∧ ((cell.get seen).stream id).length = version ∧
        store.append id (.exact version) batch w =
          (.ok (EventLog.number (version + 1) batch),
            cell.set ((cell.get seen).extend id (EventLog.number (version + 1) batch)) seen) := by
  obtain ⟨seen, hothers, happend⟩ := hs.append id (.exact version) batch w
  have hcases := (cell.get seen).append_cases id (.exact version) batch
  have hlength := (hs.consistent hothers hcons).currentVersion_eq id
  rw [happend, Cell.run_apply]
  generalize (cell.get seen).append id (.exact version) batch = result at hcases
  cases hcases with
  | refused error => exact .inl ⟨error, seen, by rw [hs.set_get], hothers⟩
  | empty hempty => exact absurd hempty hbatch
  | stored _ _ hversion =>
    have heq : version = ((cell.get seen).stream id).length := by
      rw [← hlength]
      simpa [ExpectedVersion.admits] using hversion
    refine .inr ⟨seen, hothers, heq.symm, ?_⟩
    rw [hlength, heq]

/-- A commit wraps what is buffered and appends it at the committed version. If the append is
refused, the profile is left as it is. -/
theorem commit_buffered (hs : SharedStore store cell idle others) {q : Profile}
    (hbuffer : q.uncommitted.events ≠ []) (w : ω) :
    ∃ batch w', List.Forall₂ (Repository.Wraps q.id) q.uncommitted.events batch ∧ idle w w' ∧
      let step := Repository.commit store q w
      match store.append q.id (.exact q.committedVersion) batch w' with
      | (.error error, after) => step = ((.error (.ofStore error), q), after)
      | (.ok committed, seen) => ∃ after, step = ((.ok committed, q.markCommitted), after) ∧
          idle seen after := by
  obtain ⟨hwraps, hidle⟩ := Repository.wrap_spec hs.idle_frame.refl hs.idle_frame.trans hs.fresh
    q.id q.uncommitted.events w
  have hsome : q.uncommitted.isEmpty = false := by
    rw [Uncommitted.isEmpty]
    simpa using hbuffer
  refine ⟨_, _, hwraps, hidle, ?_⟩
  rw [Repository.commit, if_neg (by simp [hsome])]
  simp only [bind_apply]
  generalize store.append q.id _ _ _ = appended
  obtain ⟨_ | committed, after⟩ := appended
  · rfl
  · exact ⟨_, rfl, hs.idle_frame.report (hs.idle_frame.refl _) _ _ _⟩

/-- Committing what was recorded on the beginning of a stream appends a batch that wraps it,
at the version where that beginning ends. -/
theorem commit_record (hs : SharedStore store cell idle others) {id : AggregateId} {p : Profile}
    {beginning : List StoredEvent} {events : List ProfileEvent} (w : ω)
    (hreplayed : Repository.applyStored (.blank id) beginning = .ok p) (hid : p.id = id)
    (hfits : p.Fits events) (hevents : events ≠ []) :
    ∃ batch w', batch ≠ [] ∧ List.Forall₂ (Repository.Wraps id) events batch ∧ idle w w' ∧
      let step := Repository.commit store (events.foldl Profile.record p) w
      match store.append id (.exact beginning.length) batch w' with
      | (.error error, after) => (step.1.1, step.2) = (.error (.ofStore error), after)
      | (.ok committed, seen) => ∃ after, (step.1.1, step.2) = (.ok committed, after) ∧ idle seen after := by
  obtain ⟨hversion, hbuffer⟩ := Profile.committedVersion_foldl_record
    (Repository.uncommitted_of_applyStored hreplayed) events
  have hid' : (events.foldl Profile.record p).id = id := by
    rw [Profile.foldl_record]
    exact hfits.id_replay.trans hid
  rw [Repository.version_of_applyStored hreplayed] at hversion
  generalize events.foldl Profile.record p = q at hversion hbuffer hid'
  obtain ⟨batch, w', hwraps, hidle, hcommit⟩ := hs.commit_buffered (hbuffer ▸ hevents) w
  rw [hid', hbuffer] at hwraps
  refine ⟨batch, w', ?_, hwraps, hidle, ?_⟩
  · rintro rfl
    exact hevents (List.forall₂_nil_right_iff.mp hwraps)
  · rw [hid', hversion] at hcommit
    intro step
    generalize store.append id _ batch w' = appended at hcommit
    obtain ⟨_ | committed, after⟩ := appended
    · exact congrArg (fun step => (step.1.1, step.2)) hcommit
    · obtain ⟨after, hcommit, hidle'⟩ := hcommit
      exact ⟨after, congrArg (fun step => (step.1.1, step.2)) hcommit, hidle'⟩

theorem commit_spec (hs : SharedStore store cell idle others) {id : AggregateId}
    {command : ProfileCommand} {p : Profile} {beginning : List StoredEvent}
    {events : List ProfileEvent} {w : ω} (hcons : (cell.get w).Consistent)
    (hstart : beginning <+: (cell.get w).stream id)
    (hreplayed : Repository.applyStored (.blank id) beginning = .ok p) (hid : p.id = id)
    (hdecided : p.decide command = .ok events) (hfits : p.Fits events) (hevents : events ≠ []) :
    Lands cell idle others id command w
      ((Repository.commit store (events.foldl Profile.record p) w).1.1,
        (Repository.commit store (events.foldl Profile.record p) w).2) := by
  obtain ⟨batch, wrapped, hbatch, hwraps, hidle, hcommit⟩ :=
    hs.commit_record w hreplayed hid hfits hevents
  have hothers := hs.others_of_idle hidle
  rcases hs.append_spec beginning.length hbatch (hs.consistent hothers hcons) with
    ⟨error, w', happend, hrefused⟩ | ⟨seen, hseen, hlength, happend⟩
  · rw [happend] at hcommit
    rw [hcommit]
    exact hs.others_frame.trans hothers hrefused
  · rw [happend] at hcommit
    obtain ⟨after, hcommit, hidle'⟩ := hcommit
    rw [hcommit]
    have hstream : beginning = (cell.get seen).stream id :=
      (hstart.trans (hs.stream_prefix (hs.others_frame.trans hothers hseen) id)).eq_of_length
        hlength.symm
    refine ⟨seen, hs.others_frame.trans hothers hseen, ?_, hidle'⟩
    rw [← hlength]
    exact .intro p events _ (hstream ▸ hreplayed) hdecided hfits hevents hwraps

/-- Where a cycle starts: a creation on a blank profile, another command on a loaded one.
Either way the profile is what some beginning of its stream describes. -/
theorem start_spec (hs : SharedStore store cell idle others) (id : AggregateId)
    (command : ProfileCommand) (w : ω) :
    ∃ result w', others w w' ∧ (if command.target.isCreation then pure (.ok (.blank id))
        else Repository.load store id : StateM ω (Except DispatchError Profile)) w = (result, w') ∧
      ∀ p, result = .ok p → (command.target.isCreation = true → p = .blank id) ∧
        ∃ beginning, beginning <+: (cell.get w').stream id ∧
          Repository.applyStored (.blank id) beginning = .ok p := by
  by_cases hcreation : command.target.isCreation = true
  · refine ⟨.ok (.blank id), w, hs.others_frame.refl w, by rw [if_pos hcreation]; rfl, ?_⟩
    rintro p ⟨⟩
    exact ⟨fun _ => rfl, [], List.nil_prefix, rfl⟩
  · obtain ⟨w', hothers, hload⟩ := hs.load_spec id w
    refine ⟨_, w', hothers, by rw [if_neg hcreation]; exact hload, ?_⟩
    intro p hp
    exact ⟨fun h => absurd h hcreation, _, List.prefix_rfl, Repository.applyStored_of_replayStream hp⟩

/-- One cycle lands its batch or adds nothing. -/
theorem attempt_spec (hs : SharedStore store cell idle others) (retry : RetryPolicy)
    {id : AggregateId} {command : ProfileCommand}
    (htarget : ∀ target, command.target.aggregateId = some target → target = id) {w : ω}
    (hcons : (cell.get w).Consistent) :
    Lands cell idle others id command w (CommandHandler.attempt ⟨store, retry⟩ id command w) := by
  obtain ⟨result, loaded, hothers, hstart, hresult⟩ := hs.start_spec id command w
  rw [CommandHandler.attempt, bind_apply, hstart]
  cases result with
  | error error => exact hothers
  | ok p =>
    obtain ⟨hblank, beginning, hbeginning, hreplayed⟩ := hresult p rfl
    simp only [Profile.handle]
    cases hdecided : p.decide command with
    | error rejection => exact hothers
    | ok events =>
      have hnew : command.target.isCreation = true → p.retired = false := by
        intro h
        rw [hblank h]
        rfl
      obtain ⟨hfits, hevents⟩ := Profile.fits_decide hnew hdecided
      have hid : p.id = id := by
        cases command with
        | add profileId userId time => rw [hblank rfl]; rfl
        | act profileId action time => exact (Profile.id_of_decide hdecided).trans (htarget _ rfl)
      have hcommit := hs.commit_spec (hs.consistent hothers hcons) hbeginning hreplayed hid hdecided
        hfits hevents
      exact hcommit.after hs.others_frame hothers

theorem lands_report (hs : SharedStore store cell idle others) {ε : Type} {id : AggregateId}
    {command : ProfileCommand} {w w' : ω} {result : Except ε (List StoredEvent)}
    (h : Lands cell idle others id command w (result, w')) {ε' : Type}
    {result' : Except ε' (List StoredEvent)} (hresult : result.toOption = result'.toOption)
    (record : JournalRecord) :
    Lands cell idle others id command w (result', Journal.note record w') := by
  cases result with
  | error error =>
    cases result' with
    | error error' => exact hs.others_frame.trans h (hs.others_frame.note _ _)
    | ok committed => contradiction
  | ok committed =>
    cases result' with
    | error error' => contradiction
    | ok committed' =>
      cases hresult
      obtain ⟨seen, hseen, hcarries, hidle⟩ := h
      exact ⟨seen, hseen, hcarries, hs.idle_frame.trans hidle (hs.idle_frame.note _ _)⟩

theorem cycles_step (hs : SharedStore store cell idle others) (retry : RetryPolicy)
    {id : AggregateId} {command : ProfileCommand}
    (htarget : ∀ target, command.target.aggregateId = some target → target = id) (more number : Nat)
    {w : ω} (hcons : (cell.get w).Consistent) :
    (∃ result w', CommandHandler.cycles ⟨store, retry⟩ id command more number w =
        (result.map (CommandHandler.outcome id number), w') ∧
          Lands cell idle others id command w (result, w')) ∨
      ∃ fewer w', more = fewer + 1 ∧ others w w' ∧
        CommandHandler.cycles ⟨store, retry⟩ id command more number w =
          CommandHandler.cycles ⟨store, retry⟩ id command fewer (number + 1) w' := by
  have hattempt := hs.attempt_spec retry htarget hcons
  rw [CommandHandler.cycles, bind_apply]
  generalize CommandHandler.attempt ⟨store, retry⟩ id command w = step at hattempt
  obtain ⟨result, w'⟩ := step
  cases result with
  | ok committed => exact .inl ⟨.ok committed, _, rfl, hs.lands_report hattempt rfl _⟩
  | error error =>
    cases error with
    | concurrency reason =>
      by_cases hcreation : command.target.isCreation = true
      · simp only [hcreation]
        exact .inl ⟨.error _, _, rfl, hattempt⟩
      · simp only [hcreation]
        cases more with
        | zero => exact .inl ⟨.error _, _, rfl, hs.others_frame.report hattempt _ _ _⟩
        | succ fewer =>
          cases retry.delayAfter number with
          | none => exact .inl ⟨.error _, _, rfl, hattempt⟩
          | some delay =>
            exact .inr ⟨fewer, _, rfl, hs.others_frame.report hattempt _ _ _, rfl⟩
    | _ => exact .inl ⟨.error _, _, rfl, hattempt⟩

/-- Cycles land one batch or add nothing. -/
theorem cycles_spec (hs : SharedStore store cell idle others) (retry : RetryPolicy)
    {id : AggregateId} {command : ProfileCommand}
    (htarget : ∀ target, command.target.aggregateId = some target → target = id) (more number : Nat)
    {w : ω} (hcons : (cell.get w).Consistent) :
    ∃ attempts result w', CommandHandler.cycles ⟨store, retry⟩ id command more number w =
        (result.map (CommandHandler.outcome id attempts), w') ∧
      Lands cell idle others id command w (result, w') := by
  induction more generalizing number w with
  | zero =>
    rcases hs.cycles_step retry htarget 0 number hcons with hlast | ⟨fewer, _, hmore, _⟩
    · exact ⟨number, hlast⟩
    · contradiction
  | succ more ih =>
    rcases hs.cycles_step retry htarget (more + 1) number hcons with
      hlast | ⟨fewer, w', hmore, hothers, hcycles⟩
    · exact ⟨number, hlast⟩
    · cases hmore
      obtain ⟨attempts, result, w'', hrest, hlands⟩ := ih (number + 1) (hs.consistent hothers hcons)
      exact ⟨attempts, result, w'', hcycles.trans hrest, hlands.after hs.others_frame hothers⟩

/-- Handling a command lands one batch on its stream, or it adds nothing to any. -/
theorem handle_spec (hs : SharedStore store cell idle others) (retry : RetryPolicy)
    (command : ProfileCommand) {w : ω} (hcons : (cell.get w).Consistent) :
    ∃ id attempts result w', (∀ target, command.target.aggregateId = some target → target = id) ∧
      CommandHandler.handle ⟨store, retry⟩ command w =
        (result.map (CommandHandler.outcome id attempts), w') ∧
      Lands cell idle others id command w (result, w') := by
  obtain ⟨id, w₁, hallocate, hidle, htarget⟩ : ∃ id w₁, CommandHandler.allocate command w = (id, w₁) ∧
      idle w w₁ ∧ ∀ target, command.target.aggregateId = some target → target = id := by
    unfold CommandHandler.allocate
    cases command.target.aggregateId with
    | some id => exact ⟨id, w, rfl, hs.idle_frame.refl w, by simp⟩
    | none => exact ⟨_, _, rfl, hs.fresh w, by simp⟩
  have hothers := hs.others_of_idle hidle
  obtain ⟨attempts, result, w', hcycles, hlands⟩ := hs.cycles_spec retry htarget
    (CommandHandler.repetitions retry) 1 (hs.consistent hothers hcons)
  replace hlands := hlands.after hs.others_frame hothers
  refine ⟨id, attempts, ?_⟩
  rw [CommandHandler.handle, bind_apply, hallocate, bind_apply, hcycles]
  cases result with
  | ok committed => exact ⟨.ok committed, w', htarget, rfl, hlands⟩
  | error error => exact ⟨.error error, _, htarget, rfl, hs.lands_report hlands rfl _⟩

end SharedStore

end IdentityLedger
