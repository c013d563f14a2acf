import IdentityLedger.Worker

/-!
# A worker loses and repeats nothing

Messages are published while a worker takes its own steps; then it is asked to stop, or the
bus is closed. Whether a message is received, drained on request or found after the bus is
gone depends on how the steps fall. But what the handler has been given and what is still
queued are together the messages published so far, in their order, and only a crash of the
handler cuts this short.
-/
namespace IdentityLedger.Worker
variable {σ μ : Type}

namespace Step

def message? : Step μ → Option μ
  | publish message => some message
  | _ => none

/-- Asks the worker to stop, or takes the bus away. -/
def isClosing : Step μ → Bool
  | requestStop | closeBus => true
  | _ => false

end Step

def published (schedule : List (Step μ)) : List μ := schedule.filterMap Step.message?

/-- A handler that also keeps what it is given. -/
def keeping (handler : Handler σ μ) : Handler (List μ × σ) μ := fun (given, state) message =>
  ((handler state message).1, given ++ [message], (handler state message).2)

section Handling
variable (handler : Handler σ μ)

/-- The handler does not crash on any of the messages, given one after another. -/
def GetsThrough : σ → List μ → Prop
  | _, [] => True
  | state, message :: messages =>
    (handler state message).1 ≠ .crashed ∧ GetsThrough (handler state message).2 messages

def stateAfter (state : σ) (messages : List μ) : σ :=
  messages.foldl (fun state message => (handler state message).2) state

/-- The first message on which the handler crashes comes right after the given ones. -/
structure CrashesAfter (state : σ) (messages : List μ) (message : μ) : Prop where
  getsThrough : GetsThrough handler state messages
  crashes : (handler (stateAfter handler state messages) message).1 = .crashed

/-- All messages, or those up to the first on which the handler crashes. -/
def upToCrash : σ → List μ → List μ
  | _, [] => []
  | state, message :: messages =>
    if (handler state message).1 = .crashed then [message]
    else message :: upToCrash (handler state message).2 messages

end Handling

section Crash
variable {handler : Handler σ μ} {state : σ} {messages more : List μ} {message : μ}

theorem stateAfter_concat : stateAfter handler state (messages ++ [message]) =
    (handler (stateAfter handler state messages) message).2 :=
  List.foldl_append

theorem getsThrough_append : GetsThrough handler state (messages ++ more) ↔
    GetsThrough handler state messages ∧
      GetsThrough handler (stateAfter handler state messages) more := by
  induction messages generalizing state with
  | nil => simp [GetsThrough, stateAfter]
  | cons message messages ih => simp [GetsThrough, stateAfter, ih, and_assoc]

theorem upToCrash_append_of_getsThrough (h : GetsThrough handler state messages) :
    upToCrash handler state (messages ++ more) =
      messages ++ upToCrash handler (stateAfter handler state messages) more := by
  induction messages generalizing state with
  | nil => rfl
  | cons message messages ih =>
    rw [List.cons_append, upToCrash, if_neg h.1, ih h.2]
    rfl

theorem upToCrash_of_getsThrough (h : GetsThrough handler state messages) :
    upToCrash handler state messages = messages := by
  have happend : upToCrash handler state (messages ++ []) = messages ++ upToCrash handler _ [] :=
    upToCrash_append_of_getsThrough h
  simpa [upToCrash] using happend

theorem upToCrash_append_of_not_getsThrough (h : ¬GetsThrough handler state messages) :
    upToCrash handler state (messages ++ more) = upToCrash handler state messages := by
  induction messages generalizing state with
  | nil => exact absurd trivial h
  | cons message messages ih =>
    rw [List.cons_append, upToCrash, upToCrash]
    split
    · rfl
    · next hcrash => rw [ih fun hmore => h ⟨hcrash, hmore⟩]

theorem CrashesAfter.upToCrash_eq (h : CrashesAfter handler state messages message) :
    upToCrash handler state (messages ++ message :: more) = messages ++ [message] := by
  rw [upToCrash_append_of_getsThrough h.getsThrough, upToCrash, if_pos h.crashes]

theorem CrashesAfter.not_getsThrough (h : CrashesAfter handler state messages message) :
    ¬GetsThrough handler state (messages ++ message :: more) :=
  fun hall => (getsThrough_append.mp hall).2.1 h.crashes

theorem handleAll_keeping (handler : Handler σ μ) (given : List μ) (state : σ) (messages : List μ) :
    (handleAll (keeping handler) (given, state) messages).2.1 =
        given ++ upToCrash handler state messages ∧
      ((handleAll (keeping handler) (given, state) messages).1 = false ↔
        GetsThrough handler state messages) := by
  induction messages generalizing given state with
  | nil => simp [handleAll, upToCrash, GetsThrough]
  | cons message messages ih =>
    obtain ⟨hgiven, hthrough⟩ := ih (given ++ [message]) (handler state message).2
    rw [handleAll, keeping]
    cases hverdict : (handler state message).1 <;>
      simp [hverdict, upToCrash, GetsThrough, hgiven, hthrough]

theorem GetsThrough.handleAll_keeping {given : List μ} (h : GetsThrough handler state given)
    (messages : List μ) :
    (handleAll (keeping handler) (given, stateAfter handler state given) messages).2.1 =
        upToCrash handler state (given ++ messages) ∧
      ((handleAll (keeping handler) (given, stateAfter handler state given) messages).1 = false ↔
        GetsThrough handler state (given ++ messages)) := by
  rw [upToCrash_append_of_getsThrough h, getsThrough_append, and_iff_right h]
  exact Worker.handleAll_keeping handler given _ messages

end Crash

inductive Advances (handler : Handler σ μ) (w : Worker σ μ) : Worker σ μ → Prop
  | rest (hended : w.hasEnded = true) : Advances handler w w
  | look (hphase : w.phase = .checking) (hstop : w.stopRequested = false) :
      Advances handler w { w with phase := .receiving }
  | drain (hphase : w.phase = .checking) (hstop : w.stopRequested = true) :
      Advances handler w { w with
        inbox := []
        phase := if (handleAll handler w.state w.inbox).1 then .crashed else .stopped
        state := (handleAll handler w.state w.inbox).2 }
  | wait (hphase : w.phase = .receiving) (hinbox : w.inbox = []) (hopen : w.busOpen = true) :
      Advances handler w { w with phase := .checking }
  | part (hphase : w.phase = .receiving) (hinbox : w.inbox = []) (hopen : w.busOpen = false) :
      Advances handler w { w with phase := .stopped }
  | crash (message : μ) (inbox : List μ) (hphase : w.phase = .receiving)
      (hinbox : w.inbox = message :: inbox) (hverdict : (handler w.state message).1 = .crashed) :
      Advances handler w
        { w with inbox := [], phase := .crashed, state := (handler w.state message).2 }
  | take (message : μ) (inbox : List μ) (hphase : w.phase = .receiving)
      (hinbox : w.inbox = message :: inbox) (hverdict : (handler w.state message).1 ≠ .crashed) :
      Advances handler w { w with inbox, phase := .checking, state := (handler w.state message).2 }

theorem advance_cases (handler : Handler σ μ) (w : Worker σ μ) :
    Advances handler w (w.advance handler) := by
  obtain ⟨inbox, busOpen, stopRequested, phase, state⟩ := w
  cases phase with
  | stopped | crashed => exact .rest rfl
  | checking =>
    cases stopRequested with
    | false => exact .look rfl rfl
    | true => exact .drain rfl rfl
  | receiving =>
    cases inbox with
    | nil =>
      cases busOpen with
      | false => exact .part rfl rfl rfl
      | true => exact .wait rfl rfl rfl
    | cons message inbox =>
      have hcrash := @Advances.crash σ μ handler
        ⟨message :: inbox, busOpen, stopRequested, .receiving, state⟩ message inbox rfl rfl
      have htake := @Advances.take σ μ handler
        ⟨message :: inbox, busOpen, stopRequested, .receiving, state⟩ message inbox rfl rfl
      rw [advance]
      dsimp only at hcrash htake ⊢
      rcases hverdict : handler state message with ⟨verdict, next⟩
      rw [hverdict] at hcrash htake
      cases verdict with
      | crashed => exact hcrash rfl
      | done | failed => exact htake nofun

theorem Advances.eq_of_hasEnded {handler : Handler σ μ} {w w' : Worker σ μ}
    (h : Advances handler w w') (hended : w.hasEnded = true) : w' = w := by
  cases h with
  | rest => rfl
  | look hphase | drain hphase | wait hphase | part hphase | crash _ _ hphase | take _ _ hphase =>
    simp [hasEnded, hphase] at hended

/-- Where the messages published so far are, in terms of a handler that keeps what it is given. -/
inductive Hands (handler : Handler σ μ) (start : σ) (messages : List μ)
    (w : Worker (List μ × σ) μ) : Prop
  | working (hphase : w.hasEnded = false) (hmessages : w.state.1 ++ w.inbox = messages)
      (hgiven : GetsThrough handler start w.state.1)
      (hstate : w.state.2 = stateAfter handler start w.state.1)
  | stopped (hphase : w.phase = .stopped) (hmessages : w.state.1 = messages)
      (hgiven : GetsThrough handler start messages)
  | crashed (hphase : w.phase = .crashed) (hmessages : w.state.1 = upToCrash handler start messages)
      (hgiven : ¬GetsThrough handler start messages)

namespace Hands
variable {handler : Handler σ μ} {start : σ} {messages : List μ} {w w' : Worker (List μ × σ) μ}

theorem spawn (handler : Handler σ μ) (start : σ) : Hands handler start [] (spawn ([], start)) :=
  .working rfl rfl trivial rfl

theorem given_eq (h : Hands handler start messages w) (hended : w.hasEnded = true) :
    w.state.1 = upToCrash handler start messages := by
  cases h with
  | working hphase => exact absurd hended (by simp [hphase])
  | stopped _ hmessages hgiven => rw [hmessages, upToCrash_of_getsThrough hgiven]
  | crashed _ hmessages _ => exact hmessages

theorem advances (h : Hands handler start messages w) (hw : Advances (keeping handler) w w') :
    Hands handler start messages w' := by
  cases hended : w.hasEnded with
  | true => exact hw.eq_of_hasEnded hended ▸ h
  | false =>
    cases h with
    | stopped hphase => simp [hasEnded, hphase] at hended
    | crashed hphase => simp [hasEnded, hphase] at hended
    | working hphase hmessages hgiven hstate =>
      subst hmessages
      cases hw with
      | rest => exact .working hphase rfl hgiven hstate
      | look => exact .working rfl rfl hgiven hstate
      | wait => exact .working rfl rfl hgiven hstate
      | part _ hinbox =>
        rw [hinbox, List.append_nil]
        exact .stopped rfl rfl hgiven
      | drain =>
        obtain ⟨hdrained, hthrough⟩ := hgiven.handleAll_keeping w.inbox
        rw [← hstate] at hdrained hthrough
        cases hcrashed : (handleAll (keeping handler) w.state w.inbox).1 with
        | false =>
          have hall := hthrough.mp hcrashed
          exact .stopped rfl (hdrained.trans (upToCrash_of_getsThrough hall)) hall
        | true =>
          refine .crashed rfl hdrained fun hall => ?_
          exact Bool.false_ne_true ((hthrough.mpr hall).symm.trans hcrashed)
      | crash message inbox _ hinbox hverdict =>
        have hfirst : CrashesAfter handler start w.state.1 message := ⟨hgiven, hstate ▸ hverdict⟩
        rw [hinbox]
        exact .crashed rfl hfirst.upToCrash_eq.symm hfirst.not_getsThrough
      | take message inbox _ hinbox hverdict =>
        have hnext : stateAfter handler start (w.state.1 ++ [message]) =
            (handler (stateAfter handler start w.state.1) message).2 := stateAfter_concat
        rw [← hstate] at hnext
        rw [hinbox, List.append_cons]
        exact .working rfl rfl (getsThrough_append.mpr ⟨hgiven, hstate ▸ hverdict, trivial⟩)
          hnext.symm

/-- A message is queued, unless the handler has crashed and will be given nothing more. -/
theorem publish (h : Hands handler start messages w) (hopen : w.busOpen = true)
    (hphase : w.phase ≠ .stopped) (message : μ) :
    Hands handler start (messages ++ [message]) (w.step (keeping handler) (.publish message)) := by
  rw [step]
  cases h with
  | stopped hstopped => contradiction
  | working hworking hmessages hgiven hstate =>
    rw [if_pos (by simp [hopen, hworking])]
    exact .working hworking (by rw [← hmessages, List.append_assoc]) hgiven hstate
  | crashed hcrashed hmessages hgiven =>
    rw [if_neg (by simp [hasEnded, hcrashed])]
    refine .crashed hcrashed ?_ fun hall => hgiven (getsThrough_append.mp hall).1
    rw [hmessages, upToCrash_append_of_not_getsThrough hgiven]

theorem step (h : Hands handler start messages w) {step : Step μ} (hstep : step.message? = none) :
    Hands handler start messages (w.step (keeping handler) step) := by
  cases step with
  | publish => contradiction
  | advance => exact h.advances (advance_cases _ w)
  | requestStop | closeBus =>
    cases h with
    | working hphase hmessages hgiven hstate => exact .working hphase hmessages hgiven hstate
    | stopped hphase hmessages hgiven => exact .stopped hphase hmessages hgiven
    | crashed hphase hmessages hgiven => exact .crashed hphase hmessages hgiven

theorem run (h : Hands handler start messages w) {schedule : List (Step μ)}
    (hschedule : ∀ step ∈ schedule, step.message? = none) :
    Hands handler start messages (w.run (keeping handler) schedule) := by
  induction schedule generalizing w with
  | nil => exact h
  | cons step schedule ih =>
    rw [List.forall_mem_cons] at hschedule
    exact ih (h.step hschedule.1) hschedule.2

end Hands

structure Serves (w : Worker σ μ) : Prop where
  busOpen : w.busOpen = true
  stopRequested : w.stopRequested = false
  phase : w.phase ≠ .stopped

theorem Serves.step {w : Worker σ μ} (h : w.Serves) (handler : Handler σ μ) {step : Step μ}
    (hstep : step.isClosing = false) : (w.step handler step).Serves := by
  cases step with
  | requestStop | closeBus => contradiction
  | publish message =>
    rw [Worker.step]
    split
    · exact ⟨h.busOpen, h.stopRequested, h.phase⟩
    · exact h
  | advance =>
    rw [Worker.step]
    have hw := advance_cases handler w
    generalize w.advance handler = w' at hw
    cases hw with
    | rest => exact h
    | look | wait | crash | take => exact ⟨h.busOpen, h.stopRequested, nofun⟩
    | drain _ hstop => simp [h.stopRequested] at hstop
    | part _ _ hopen => simp [h.busOpen] at hopen

/-- Every message that is published before anything closes is queued or given to the handler. -/
theorem Hands.serve {handler : Handler σ μ} {start : σ} {messages : List μ}
    {w : Worker (List μ × σ) μ} (h : Hands handler start messages w) (hserves : w.Serves)
    {schedule : List (Step μ)} (hschedule : ∀ step ∈ schedule, step.isClosing = false) :
    Hands handler start (messages ++ published schedule) (w.run (keeping handler) schedule) := by
  induction schedule generalizing messages w with
  | nil => exact (List.append_nil messages).symm ▸ h
  | cons step schedule ih =>
    rw [List.forall_mem_cons] at hschedule
    have hserves' := hserves.step (keeping handler) hschedule.1
    cases step with
    | requestStop | closeBus => exact absurd hschedule.1 (by simp [Step.isClosing])
    | advance => exact ih (h.step rfl) hserves' hschedule.2
    | publish message =>
      have hnext := ih (h.publish hserves.busOpen hserves.phase message) hserves' hschedule.2
      rwa [List.append_assoc] at hnext

/-- Once a worker was asked to stop or the bus is gone, it takes at most so many steps. -/
def remaining (w : Worker σ μ) : Nat :=
  match w.phase, w.stopRequested with
  | .stopped, _ | .crashed, _ => 0
  | .checking, true => 1
  | .receiving, true => 2
  | .receiving, false => 2 * w.inbox.length + 1
  | .checking, false => 2 * w.inbox.length + 2

theorem remaining_eq_zero_iff (w : Worker σ μ) : w.remaining = 0 ↔ w.hasEnded = true := by
  obtain ⟨inbox, busOpen, stopRequested, phase, state⟩ := w
  cases phase <;> cases stopRequested <;> simp [remaining, hasEnded]

theorem remaining_le (w : Worker σ μ) : w.remaining ≤ 2 * w.inbox.length + 3 := by
  unfold remaining
  split <;> omega

/-- A worker that will come to an end. -/
def Closes (w : Worker σ μ) : Prop := w.stopRequested = true ∨ w.busOpen = false

theorem Advances.closes {handler : Handler σ μ} {w w' : Worker σ μ} (h : Advances handler w w')
    (hcloses : w.Closes) : w'.Closes := by
  cases h <;> exact hcloses

theorem Advances.remaining_le {handler : Handler σ μ} {w w' : Worker σ μ}
    (h : Advances handler w w') (hcloses : w.Closes) : w'.remaining ≤ w.remaining - 1 := by
  cases h with
  | rest hended => exact ((remaining_eq_zero_iff w).mpr hended).symm ▸ Nat.zero_le _
  | look hphase hstop => simp [remaining, hphase, hstop]
  | drain hphase hstop =>
    cases hcrashed : (handleAll handler w.state w.inbox).1 <;> simp [remaining]
  | wait hphase hinbox hopen =>
    have hstop : w.stopRequested = true := hcloses.resolve_right (by simp [hopen])
    simp [remaining, hphase, hstop]
  | part | crash => simp [remaining]
  | take message inbox hphase hinbox =>
    cases hstop : w.stopRequested
    · simp [remaining, hphase, hstop, hinbox, Nat.mul_succ]
    · simp [remaining, hphase, hstop]

theorem Closes.hasEnded_run {w : Worker σ μ} (h : w.Closes) (handler : Handler σ μ) {steps : Nat}
    (hsteps : w.remaining ≤ steps) :
    (w.run handler (List.replicate steps .advance)).hasEnded = true := by
  induction steps generalizing w with
  | zero => exact (remaining_eq_zero_iff w).mp (Nat.le_zero.mp hsteps)
  | succ steps ih =>
    have hw : Advances handler w (w.step handler .advance) := advance_cases handler w
    have hless := hw.remaining_le h
    exact ih (hw.closes h) (by omega)

theorem Closes.step {w : Worker σ μ} (h : w.Closes) (handler : Handler σ μ) (step : Step μ) :
    (w.step handler step).Closes := by
  cases step with
  | advance => exact (advance_cases handler w).closes h
  | requestStop => exact .inl rfl
  | closeBus => exact .inr rfl
  | publish message =>
    rw [Worker.step]
    split <;> exact h

theorem closes_step (w : Worker σ μ) (handler : Handler σ μ) {step : Step μ}
    (h : step.isClosing = true) : (w.step handler step).Closes := by
  cases step with
  | requestStop => exact .inl rfl
  | closeBus => exact .inr rfl
  | publish | advance => contradiction

theorem closes_run {w : Worker σ μ} (handler : Handler σ μ) {schedule : List (Step μ)}
    (h : w.Closes ∨ ∃ step ∈ schedule, step.isClosing = true) :
    (w.run handler schedule).Closes := by
  induction schedule generalizing w with
  | nil => exact h.resolve_right (by simp)
  | cons step schedule ih =>
    refine ih ?_
    rcases h with h | ⟨closing, hmem, hclosing⟩
    · exact .inl (h.step handler step)
    · rcases List.mem_cons.mp hmem with rfl | hmem
      · exact .inl (closes_step w handler hclosing)
      · exact .inr ⟨closing, hmem, hclosing⟩

/-- Messages are published while the worker takes its steps; after the last of them the worker
is asked to stop or the bus is closed. However the steps fall, a worker that has ended has
given its handler exactly the published messages, in their order and each once; or, if the
handler crashes, those up to the first on which it does. And once it was asked to stop or the
bus is gone, the worker does end. -/
theorem run_hands_over (handler : Handler σ μ) (start : σ) {before after : List (Step μ)}
    (hbefore : ∀ step ∈ before, step.isClosing = false)
    (hafter : ∀ step ∈ after, step.message? = none) :
    let w := (spawn ([], start)).run (keeping handler) (before ++ after)
    (w.hasEnded = true →
      (GetsThrough handler start (published before) → w.state.1 = published before) ∧
      ∀ messages message more, published before = messages ++ message :: more →
        CrashesAfter handler start messages message → w.state.1 = messages ++ [message]) ∧
    ((∃ step ∈ after, step.isClosing = true) → (w.finish (keeping handler)).hasEnded = true) := by
  intro w
  have hserves : (spawn ([], start) : Worker (List μ × σ) μ).Serves := ⟨rfl, rfl, nofun⟩
  have hrun : w = ((spawn ([], start)).run (keeping handler) before).run (keeping handler) after :=
    List.foldl_append
  have hhands : Hands handler start (published before) w :=
    hrun ▸ ((Hands.spawn handler start).serve hserves hbefore).run hafter
  refine ⟨fun hended => ?_, fun hclosing => ?_⟩
  · rw [hhands.given_eq hended]
    refine ⟨upToCrash_of_getsThrough, fun messages message more hmessages hcrash => ?_⟩
    rw [hmessages, hcrash.upToCrash_eq]
  · have hcloses : w.Closes := hrun ▸ closes_run _ (.inr hclosing)
    exact hcloses.hasEnded_run _ w.remaining_le

/-- A handler that fails on the second message and crashes on the third. Of three messages the
first is received at once, and the rest is drained on request; of two, the second is received
after the bus is gone. -/
theorem run_hands_over_failing :
    let handler : Handler Unit Nat := fun _ message =>
      (if message = 2 then .failed else if message = 3 then .crashed else .done, ())
    let early : List (Step Nat) := [.advance, .publish 1, .advance, .publish 2]
    let late : List (Step Nat) := [.closeBus, .advance, .advance, .advance, .advance]
    let crashing := early ++ [.publish 3, .publish 4]
    let draining : List (Step Nat) := [.requestStop, .advance]
    ((spawn ([], ())).run (keeping handler) (early ++ late)).state.1 = [1, 2] ∧
      ((spawn ([], ())).run (keeping handler) (crashing ++ draining)).state.1 = [1, 2, 3] := by
  intro handler early late crashing draining
  have hreceived := @run_hands_over _ _ handler () early late (by decide) (by decide)
  have hdrained := @run_hands_over _ _ handler () crashing draining (by decide) (by decide)
  refine ⟨(hreceived.1 (by decide)).1 ⟨nofun, nofun, trivial⟩, ?_⟩
  exact (hdrained.1 (by decide)).2 [1, 2] 3 [4] rfl ⟨⟨nofun, nofun, trivial⟩, rfl⟩

end IdentityLedger.Worker
