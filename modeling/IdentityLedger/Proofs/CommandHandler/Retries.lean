import IdentityLedger.Proofs.CommandHandler.Guided

/-!
# Retries against any store

Whatever a store answers, a command is handled in a bounded number of cycles: only a cycle
that loses the race is followed by another, and a creation has just one. The result says what
the last cycle said, unless that was a lost race. It is then told apart whether the id of a
creation is taken, whether all cycles were lost, and whether one was lost after which no
duration is long enough for the delay.
-/
namespace IdentityLedger

namespace DispatchError
variable {id : AggregateId} {error : DispatchError}

theorem isLostRace_ofStore (error : EventStoreError) : (ofStore error).isLostRace = false := by
  cases error <;> rfl

theorem isLostRace_ofDomain (id : AggregateId) (error : DomainError) :
    (ofDomain id error).isLostRace = false := by
  cases error <;> rfl

theorem isLostRace_of_streamError? {index : Nat} {stream : List StoredEvent}
    (h : Repository.streamError? id index stream = some error) : error.isLostRace = false := by
  induction stream generalizing index with
  | nil => contradiction
  | cons stored stream ih =>
    rw [Repository.streamError?] at h
    split at h
    · cases h
      rfl
    · split at h
      · cases h
        rfl
      · exact ih h

theorem isLostRace_of_applyStored {p : Profile} {stream : List StoredEvent}
    (h : Repository.applyStored p stream = .error error) : error.isLostRace = false := by
  induction stream generalizing p with
  | nil => contradiction
  | cons stored stream ih =>
    rw [Repository.applyStored] at h
    split at h
    · cases h
      rfl
    · exact ih h

theorem isLostRace_of_replayStream {stream : List StoredEvent}
    (h : Repository.replayStream id stream = .error error) : error.isLostRace = false := by
  unfold Repository.replayStream at h
  split at h
  · cases h
    rfl
  · split at h
    · rename_i hstream
      cases h
      exact isLostRace_of_streamError? hstream
    · exact isLostRace_of_applyStored h

end DispatchError

namespace CommandHandler

abbrev Answer := Except DispatchError (List StoredEvent)

/-- The cycle has lost the race. -/
def Answer.isLost : Answer → Bool
  | .error (.concurrency _) => true
  | _ => false

theorem Answer.isLost_eq_true {answer : Answer} (h : answer.isLost = true) :
    ∃ reason, answer = .error (.concurrency reason) := by
  cases answer with
  | ok => contradiction
  | error error =>
    cases error with
    | concurrency reason => exact ⟨reason, rfl⟩
    | _ => contradiction

variable {ω : Type}

theorem isLostRace_of_load (store : EventStore ω) (id : AggregateId) {w : ω} {error : DispatchError}
    (hload : (Repository.load store id w).1 = .error error) : error.isLostRace = false := by
  rw [Repository.load, bind_apply] at hload
  generalize store.loadStream id w = step at hload
  obtain ⟨_ | stream, w'⟩ := step
  · cases hload
    exact DispatchError.isLostRace_ofStore _
  · exact DispatchError.isLostRace_of_replayStream hload

variable [IdSupply ω] [Journal ω]

/-- Cycles that are run one after another, with what they answer. Each but the last has lost
the race, which is reported before the next one starts. -/
inductive Cycles (h : CommandHandler ω) (id : AggregateId) (command : ProfileCommand) :
    ω → List Answer → ω → Prop
  | last {w w' : ω} {answer : Answer} (runs : h.attempt id command w = (answer, w')) :
      Cycles h id command w [answer] w'
  | again {w lost w' : ω} {reason : String} {answers : List Answer}
      (loses : h.attempt id command w = (.error (.concurrency reason), lost)) (record : JournalRecord)
      (rest : Cycles h id command (Journal.note record lost) answers w') :
      Cycles h id command w (.error (.concurrency reason) :: answers) w'

/-- The result of cycles from attempt number `number` on, of which `more` may follow the first. -/
inductive Ends (retry : RetryPolicy) (command : ProfileCommand) (id : AggregateId) :
    Nat → Nat → List Answer → Except DispatchError CommandOutcome → Prop
  | stored (more number : Nat) (committed : List StoredEvent) :
      Ends retry command id more number [.ok committed] (.ok (outcome id number committed))
  | failed (more number : Nat) (error : DispatchError) (single : error.isLostRace = false)
      (unlike : ∀ reason, error ≠ .concurrency reason) :
      Ends retry command id more number [.error error] (.error error)
  | taken (more number : Nat) (reason : String) (creation : command.target.isCreation = true) :
      Ends retry command id more number [.error (.concurrency reason)] (.error (.alreadyExists id))
  | exhausted (number : Nat) (reason : String) (existing : command.target.isCreation = false) :
      Ends retry command id 0 number [.error (.concurrency reason)] (.error (.conflict id number))
  | tooLong (more number : Nat) (reason : String) (existing : command.target.isCreation = false)
      (delay : retry.delayAfter number = none) :
      Ends retry command id (more + 1) number [.error (.concurrency reason)]
        (.error (.delayTooLong number))
  | again (more number : Nat) (reason : String) (existing : command.target.isCreation = false)
      (delay : retry.delayAfter number ≠ none) {answers : List Answer}
      {result : Except DispatchError CommandOutcome}
      (rest : Ends retry command id more (number + 1) answers result) :
      Ends retry command id (more + 1) number (.error (.concurrency reason) :: answers) result

theorem isLostRace_of_commit (store : EventStore ω) (p : Profile) {w : ω} {error : DispatchError}
    (hcommit : (Repository.commit store p w).1.1 = .error error) : error.isLostRace = false := by
  rw [Repository.commit] at hcommit
  split at hcommit
  · contradiction
  · simp only [bind_apply] at hcommit
    generalize store.append p.id _ _ _ = appended at hcommit
    obtain ⟨_ | committed, w'⟩ := appended
    · cases hcommit
      exact DispatchError.isLostRace_ofStore _
    · contradiction

theorem isLostRace_of_attempt (h : CommandHandler ω) (id : AggregateId) (command : ProfileCommand)
    {w : ω} {error : DispatchError} (hattempt : (h.attempt id command w).1 = .error error) :
    error.isLostRace = false := by
  have hstart : ∀ error, ((if command.target.isCreation then pure (.ok (.blank id))
      else Repository.load h.store id : StateM ω (Except DispatchError Profile)) w).1 = .error error →
        error.isLostRace = false := by
    intro error hstart
    split at hstart
    · contradiction
    · exact isLostRace_of_load h.store id hstart
  rw [attempt, bind_apply] at hattempt
  generalize (if command.target.isCreation then pure (.ok (.blank id))
    else Repository.load h.store id : StateM ω (Except DispatchError Profile)) w = start
      at hstart hattempt
  obtain ⟨_ | p, w'⟩ := start
  · cases hattempt
    exact hstart _ rfl
  · dsimp only at hattempt
    generalize p.handle command = handled at hattempt
    obtain ⟨_ | _, q⟩ := handled
    · cases hattempt
      exact DispatchError.isLostRace_ofDomain id _
    · exact isLostRace_of_commit h.store q hattempt

def noted (w : ω) (records : List JournalRecord) : ω :=
  records.foldl (fun w record => Journal.note record w) w

omit [IdSupply ω] in
theorem noted_append (w : ω) (first rest : List JournalRecord) :
    noted w (first ++ rest) = noted (noted w first) rest := List.foldl_append

/-- A cycle is the last one, or it has lost the race and others follow its report. -/
theorem cycles_cases (h : CommandHandler ω) (id : AggregateId) (command : ProfileCommand)
    (more number : Nat) (w : ω) :
    (∃ records, (h.cycles id command more number w).2 = noted (h.attempt id command w).2 records ∧
        Ends h.retry command id more number [(h.attempt id command w).1]
          (h.cycles id command more number w).1) ∨
      ∃ fewer reason record, more = fewer + 1 ∧
        (h.attempt id command w).1 = .error (.concurrency reason) ∧
        command.target.isCreation = false ∧ h.retry.delayAfter number ≠ none ∧
        h.cycles id command more number w =
          h.cycles id command fewer (number + 1) (Journal.note record (h.attempt id command w).2) := by
  have hsingle : ∀ error, (h.attempt id command w).1 = .error error → error.isLostRace = false :=
    fun _ => h.isLostRace_of_attempt id command
  rw [cycles, bind_apply]
  generalize h.attempt id command w = step at hsingle ⊢
  obtain ⟨_ | committed, w'⟩ := step
  · rename_i error
    cases error with
    | concurrency reason =>
      cases hcreation : command.target.isCreation with
      | true => exact .inl ⟨[], rfl, .taken more number reason hcreation⟩
      | false =>
        cases more with
        | zero => exact .inl ⟨[_], rfl, .exhausted number reason hcreation⟩
        | succ fewer =>
          cases hdelay : h.retry.delayAfter number with
          | none => exact .inl ⟨[], rfl, .tooLong fewer number reason hcreation hdelay⟩
          | some delay =>
            exact .inr ⟨fewer, reason, _, rfl, rfl, rfl, Option.some_ne_none delay, rfl⟩
    | _ =>
      exact .inl ⟨[], rfl, .failed more number _ (hsingle _ rfl)
        fun _ heq => DispatchError.noConfusion heq⟩
  · exact .inl ⟨[_], rfl, .stored more number committed⟩

/-- The cycles of a handler end as their answers say. -/
theorem cycles_ends (h : CommandHandler ω) (id : AggregateId) (command : ProfileCommand)
    (more number : Nat) (w : ω) : ∃ answers w' records, Cycles h id command w answers w' ∧
      (h.cycles id command more number w).2 = noted w' records ∧
      Ends h.retry command id more number answers (h.cycles id command more number w).1 := by
  induction more generalizing number w with
  | zero =>
    rcases h.cycles_cases id command 0 number w with
      ⟨records, hstate, hends⟩ | ⟨fewer, reason, record, hmore, _⟩
    · exact ⟨_, _, records, .last rfl, hstate, hends⟩
    · contradiction
  | succ more ih =>
    rcases h.cycles_cases id command (more + 1) number w with
      ⟨records, hstate, hends⟩ | ⟨fewer, reason, record, hmore, hlost, hexisting, hdelay, hcycles⟩
    · exact ⟨_, _, records, .last rfl, hstate, hends⟩
    · cases hmore
      obtain ⟨answers, w', records, hrest, hstate, hends⟩ :=
        ih (number + 1) (Journal.note record (h.attempt id command w).2)
      rw [hcycles]
      exact ⟨_, w', records, .again (Prod.ext hlost rfl) record hrest, hstate,
        .again more number reason hexisting hdelay hends⟩

variable {retry : RetryPolicy} {command : ProfileCommand} {id : AggregateId} {more number : Nat}
variable {answers : List Answer} {result : Except DispatchError CommandOutcome}

theorem Ends.length_le (h : Ends retry command id more number answers result) :
    answers.length ≤ more + 1 := by
  induction h with
  | again _ _ _ _ _ _ ih => exact Nat.succ_le_succ ih
  | _ => simp

theorem Ends.length_of_isCreation (h : Ends retry command id more number answers result)
    (hcreation : command.target.isCreation = true) : answers.length = 1 := by
  cases h with
  | again _ _ _ hexisting => exact absurd (hexisting.symm.trans hcreation) Bool.false_ne_true
  | _ => rfl

theorem Ends.eq_alreadyExists (h : Ends retry command id more number answers result)
    (hcreation : command.target.isCreation = true) {reason : String}
    (hmem : .error (.concurrency reason) ∈ answers) : result = .error (.alreadyExists id) := by
  cases h with
  | stored => simp at hmem
  | failed _ _ error _ unlike =>
    cases List.mem_singleton.mp hmem
    exact absurd rfl (unlike reason)
  | taken => rfl
  | exhausted _ _ hexisting | tooLong _ _ _ hexisting | again _ _ _ hexisting =>
    exact absurd (hexisting.symm.trans hcreation) Bool.false_ne_true

theorem Ends.eq_error (h : Ends retry command id more number answers result) {error : DispatchError}
    (hrace : ∀ reason, error ≠ .concurrency reason) (hmem : .error error ∈ answers) :
    result = .error error := by
  induction h with
  | stored => simp at hmem
  | failed =>
    cases List.mem_singleton.mp hmem
    rfl
  | taken _ _ reason | exhausted _ reason | tooLong _ _ reason =>
    cases List.mem_singleton.mp hmem
    exact absurd rfl (hrace reason)
  | again _ _ reason _ _ _ ih =>
    rcases List.mem_cons.mp hmem with heq | hmem
    · cases heq
      exact absurd rfl (hrace reason)
    · exact ih hmem

theorem Ends.attempts_eq (h : Ends retry command id more number answers result)
    {outcome : CommandOutcome} (hresult : result = .ok outcome) :
    outcome.attempts + 1 = number + answers.length ∧
      answers.countP Answer.isLost + 1 = answers.length := by
  induction h with
  | stored more number committed =>
    cases hresult
    exact ⟨rfl, rfl⟩
  | again more number reason _ _ _ ih =>
    obtain ⟨hattempts, hcount⟩ := ih hresult
    refine ⟨by rw [List.length_cons]; omega, ?_⟩
    rw [List.countP_cons_of_pos rfl, hcount, List.length_cons]
  | _ => contradiction

theorem Answer.all_isLost_singleton {error : DispatchError}
    (hrace : ∀ reason, error ≠ .concurrency reason) :
    [(Except.error error : Answer)].all isLost = false := by
  rw [List.all_cons, List.all_nil, Bool.and_true, Bool.eq_false_iff]
  intro hlost
  obtain ⟨reason, heq⟩ := isLost_eq_true hlost
  cases heq
  exact hrace reason rfl

theorem Ends.eq_conflict_iff (h : Ends retry command id more number answers result)
    {target : AggregateId} {attempts : Nat} : result = .error (.conflict target attempts) ↔
      target = id ∧ command.target.isCreation = false ∧ answers.all Answer.isLost = true ∧
        answers.length = more + 1 ∧ attempts + 1 = number + answers.length := by
  induction h with
  | stored => simp [Answer.isLost]
  | failed more number error single unlike =>
    have hother : error ≠ .conflict target attempts := by
      rintro rfl
      contradiction
    simp [hother, Answer.all_isLost_singleton unlike]
  | taken more number reason hcreation => simp [hcreation]
  | exhausted number reason hexisting =>
    constructor
    · rintro ⟨⟩
      exact ⟨rfl, hexisting, rfl, rfl, rfl⟩
    · rintro ⟨rfl, _, _, _, hattempts⟩
      cases Nat.succ.inj hattempts
      rfl
  | tooLong more number reason hexisting hdelay => simp
  | again more number reason hexisting hdelay _ ih =>
    rw [ih, List.length_cons, List.all_cons]
    simp only [Answer.isLost, Bool.true_and]
    refine and_congr_right fun _ => and_congr_right fun _ => and_congr_right fun _ => ?_
    omega

theorem Ends.eq_delayTooLong_iff (h : Ends retry command id more number answers result)
    {attempt : Nat} : result = .error (.delayTooLong attempt) ↔
      command.target.isCreation = false ∧ answers.all Answer.isLost = true ∧
        attempt + 1 = number + answers.length ∧ answers.length < more + 1 ∧
        retry.delayAfter attempt = none := by
  induction h with
  | stored => simp [Answer.isLost]
  | failed more number error single unlike =>
    have hother : error ≠ .delayTooLong attempt := by
      rintro rfl
      contradiction
    simp [hother, Answer.all_isLost_singleton unlike]
  | taken more number reason hcreation => simp [hcreation]
  | exhausted number reason hexisting => simp
  | tooLong more number reason hexisting hdelay =>
    constructor
    · rintro ⟨⟩
      exact ⟨hexisting, rfl, rfl, Nat.succ_lt_succ (Nat.succ_pos more), hdelay⟩
    · rintro ⟨_, _, hattempt, _⟩
      cases Nat.succ.inj hattempt
      rfl
  | again more number reason hexisting hdelay _ ih =>
    rw [ih, List.length_cons, List.all_cons]
    simp only [Answer.isLost, Bool.true_and]
    refine and_congr_right fun _ => and_congr_right fun _ => ?_
    rw [← and_assoc, ← and_assoc]
    refine and_congr_left fun _ => ?_
    omega

theorem Ends.delayAfter_ne_none (h : Ends retry command id more number answers result) {before : Nat}
    (hbefore : before + 1 < answers.length) : retry.delayAfter (number + before) ≠ none := by
  induction h generalizing before with
  | again more number reason hexisting hdelay _ ih =>
    cases before with
    | zero => exact hdelay
    | succ before =>
      rw [List.length_cons] at hbefore
      rw [← Nat.succ_add_eq_add_succ]
      exact ih (Nat.lt_of_succ_lt_succ hbefore)
  | _ => simp at hbefore

/-- What handling a command comes to, by the answers of its cycles. -/
structure Concludes (retry : RetryPolicy) (command : ProfileCommand) (id : AggregateId)
    (answers : List Answer) (result : Except DispatchError CommandOutcome) : Prop where
  bounded : answers.length ≤ max 1 retry.maxAttempts
  creation : command.target.isCreation = true → answers.length = 1 ∧
    ∀ reason, .error (.concurrency reason) ∈ answers → result = .error (.alreadyExists id)
  failure : ∀ error, .error error ∈ answers → (∀ reason, error ≠ .concurrency reason) →
    result = .error error
  success : ∀ outcome, result = .ok outcome → outcome.attempts = answers.length ∧
    outcome.attempts = answers.countP Answer.isLost + 1
  conflict : ∀ target attempts, result = .error (.conflict target attempts) ↔
    target = id ∧ command.target.isCreation = false ∧ answers.all Answer.isLost = true ∧
      answers.length = max 1 retry.maxAttempts ∧ attempts = answers.length
  /-- The one way to end that is left to existing targets that lose every race. -/
  tooLong : ∀ attempt, result = .error (.delayTooLong attempt) ↔
    command.target.isCreation = false ∧ answers.all Answer.isLost = true ∧
      attempt = answers.length ∧ answers.length < max 1 retry.maxAttempts ∧
      retry.delayAfter attempt = none
  delayed : ∀ attempt, 0 < attempt → attempt < answers.length → retry.delayAfter attempt ≠ none

theorem repetitions_succ (retry : RetryPolicy) : repetitions retry + 1 = max 1 retry.maxAttempts :=
  Nat.sub_add_cancel (Nat.le_max_left _ _)

theorem Ends.concludes (h : Ends retry command id (repetitions retry) 1 answers result) :
    Concludes retry command id answers result where
  bounded := repetitions_succ retry ▸ h.length_le
  creation hcreation := ⟨h.length_of_isCreation hcreation, fun _ => h.eq_alreadyExists hcreation⟩
  failure error hmem hrace := h.eq_error hrace hmem
  success outcome hresult := by
    obtain ⟨hattempts, hcount⟩ := h.attempts_eq hresult
    omega
  conflict target attempts := by
    rw [h.eq_conflict_iff, repetitions_succ]
    refine and_congr_right fun _ => and_congr_right fun _ => and_congr_right fun _ => ?_
    omega
  tooLong attempt := by
    rw [h.eq_delayTooLong_iff, repetitions_succ]
    refine and_congr_right fun _ => and_congr_right fun _ => and_congr_left fun _ => ?_
    omega
  delayed attempt hpos hlt := by
    obtain ⟨before, rfl⟩ : ∃ before, attempt = 1 + before := ⟨attempt - 1, by omega⟩
    exact h.delayAfter_ne_none (by omega)

/-- Whatever a store answers and whatever a policy says, handling a command is a bounded number
of cycles, and its result is what they come to. -/
theorem handle_concludes (store : EventStore ω) (retry : RetryPolicy) (command : ProfileCommand)
    (w : ω) :
    let h : CommandHandler ω := ⟨store, retry⟩
    ∃ answers w' records,
      Cycles h (allocate command w).1 command (allocate command w).2 answers w' ∧
      (h.handle command w).2 = noted w' records ∧
      Concludes retry command (allocate command w).1 answers (h.handle command w).1 := by
  intro h
  obtain ⟨answers, w', records, hcycles, hstate, hends⟩ := h.cycles_ends (allocate command w).1
    command (repetitions retry) 1 (allocate command w).2
  rw [handle, bind_apply, bind_apply]
  generalize h.cycles _ command _ 1 _ = step at hstate hends
  obtain ⟨error | outcome, after⟩ := step
  · let failure : JournalRecord := ⟨.error, none, [("error", .text error.message)]⟩
    refine ⟨answers, w', records ++ [failure], hcycles, ?_, hends.concludes⟩
    rw [noted_append, ← hstate]
    rfl
  · exact ⟨answers, w', records, hcycles, hstate, hends.concludes⟩

/-- A log in which somebody else is always faster. -/
def contested : EventStore SharedLog where
  append _ _ _ := pure (.error (.concurrency "lost"))
  loadStream := (EventLog.store SharedLog.logCell).loadStream
  loadAll := (EventLog.store SharedLog.logCell).loadAll

/-- Without a delay to begin with and with a limit that is the longest one, a policy of four
attempts can be used. Yet after three lost cycles, infinity times nothing is no number, what is
left is the limit, and that is rounded to a number of seconds that no duration has. -/
theorem handle_contested_tooLong :
    let retry : RetryPolicy := ⟨4, .zero, ⟨2 ^ 64 - 1, 0, by decide, by decide⟩, 1e300⟩
    let time : Timestamp := ⟨⟨2021, 3, 5, by decide, by decide⟩, ⟨5, 6, 7, 8, by decide, by decide,
      by decide, by decide⟩, by decide⟩
    let command : ProfileCommand := .act ⟨⟨1⟩⟩ .activate time
    retry.error? = none ∧ command.target.isCreation = false ∧
      (handle ⟨contested, retry⟩ command ⟨mintedLog, [], .timeOrdered, 0, []⟩).1 =
        .error (.delayTooLong 3) := by
  intro retry time command
  have hends : ((handle ⟨contested, retry⟩ command ⟨mintedLog, [], .timeOrdered, 0, []⟩).1.map
      fun _ => ()) = .error (.delayTooLong 3) := by decide +kernel
  refine ⟨by decide +kernel, rfl, ?_⟩
  generalize (handle ⟨contested, retry⟩ command _).1 = result at hends ⊢
  cases result with
  | error error => exact congrArg Except.error (Except.error.inj hends)
  | ok => contradiction

end CommandHandler

end IdentityLedger
