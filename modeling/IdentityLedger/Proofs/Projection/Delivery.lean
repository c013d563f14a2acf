import IdentityLedger.Proofs.EventStore.Log
import IdentityLedger.Proofs.Projection.Runner

/-!
# Exactly-once delivery

A projection that is free to fail at every call, over a log whose streams are numbered
from 1 without gaps. However the envelopes of the log are submitted, and whatever is
retried in between, the runner takes the beginning of each stream, every envelope once
and in order, up to its cursor; what it parks still waits for an envelope before it.
-/
namespace IdentityLedger

/-- A projection to models `σ` whose answers may differ from call to call. -/
structure Behaviour (σ : Type) where
  name : String
  handles : String → Bool
  receive : Nat → Envelope Json → σ → Except ProjectionError σ
  reset : Nat → σ → Except ProjectionError σ

/-- A trial of a behaviour: its model, the calls it has answered, and what it has received
without a failure, oldest first. -/
structure Trial (σ : Type) where
  model : σ
  calls : Nat
  received : List (Envelope Json)
  cursors : CursorTable
  journal : List JournalRecord

namespace Trial
variable {σ : Type}

def start (model : σ) : Trial σ := ⟨model, 0, [], .empty, []⟩

instance : Journal (Trial σ) := ⟨fun record w => { w with journal := record :: w.journal }⟩

def cursorCell : Cell (Trial σ) CursorTable := ⟨Trial.cursors, fun cursors w => { w with cursors }⟩

/-- The number of the last envelope that a projection has taken of a stream. -/
def cursor (name : String) (w : Trial σ) (id : AggregateId) : Nat := (w.cursors.get? name id).getD 0

end Trial

namespace Behaviour
variable {σ : Type} (b : Behaviour σ)

def projection : Projection (Trial σ) where
  name := b.name
  handles := b.handles
  receive e w :=
    match b.receive w.calls e w.model with
    | .error error => (.error error, { w with calls := w.calls + 1 })
    | .ok model =>
      (.ok (), { w with model, calls := w.calls + 1, received := w.received ++ [e] })
  reset w :=
    match b.reset w.calls w.model with
    | .error error => (.error error, { w with calls := w.calls + 1 })
    | .ok model => (.ok (), { w with model, calls := w.calls + 1 })

def runner : Runner (Trial σ) := .new b.projection (CursorTable.store Trial.cursorCell)

def observation : Observation (Trial σ) (σ × List (Envelope Json)) where
  cursor := Trial.cursor b.name
  model w := (w.model, w.received)
  later _ _ := True
  effect e before after := after.2 = before.2 ++ [e]
  vacant _ := True

theorem lawful : b.observation.Lawful b.projection (CursorTable.store Trial.cursorCell) where
  toTracks := b.observation.tracks_of_cell Trial.cursorCell (fun _ _ => rfl)
    ⟨fun _ => trivial, fun _ _ => trivial, fun _ _ => trivial⟩ (fun _ _ => rfl) (fun _ _ => rfl)
    (fun _ _ => rfl) (fun _ _ => rfl) (fun _ _ _ => trivial) (fun _ => trivial)
  receive e w := by
    simp only [projection]
    cases b.receive w.calls e w.model with
    | error error => exact ⟨rfl, rfl, trivial⟩
    | ok model => exact ⟨rfl, rfl, trivial⟩
  reset w := by
    simp only [projection]
    cases b.reset w.calls w.model with
    | error error => exact ⟨rfl, rfl, trivial⟩
    | ok model => exact ⟨trivial, trivial⟩

end Behaviour

def streamOf (log : List (Envelope Json)) (id : AggregateId) : List (Envelope Json) :=
  log.filter fun e => e.aggregateId = id

/-- Every stream of a log is numbered from 1 without gaps. -/
def Gapless (log : List (Envelope Json)) : Prop :=
  ∀ id, (streamOf log id).map Envelope.sequenceNumber = List.range' 1 (streamOf log id).length

theorem Gapless.getElem?_streamOf {log : List (Envelope Json)} (h : Gapless log)
    {e : Envelope Json} (hmem : e ∈ log) :
    0 < e.sequenceNumber ∧ (streamOf log e.aggregateId)[e.sequenceNumber - 1]? = some e :=
  getElem?_of_numbered (h e.aggregateId) (List.mem_filter.mpr ⟨hmem, by simp⟩)

/-- An envelope of the log is known by its place. -/
theorem Gapless.eq_of_place {log : List (Envelope Json)} (h : Gapless log) {e e' : Envelope Json}
    (hmem : e ∈ log) (hmem' : e' ∈ log) (hid : e'.aggregateId = e.aggregateId)
    (hnumber : e'.sequenceNumber = e.sequenceNumber) : e' = e := by
  have hplace := (h.getElem?_streamOf hmem').2
  rw [hid, hnumber, (h.getElem?_streamOf hmem).2] at hplace
  exact (Option.some.inj hplace).symm

/-- To park an envelope of the log loses no other, since only it can be parked at its place. -/
theorem Gapless.mem_park {log : List (Envelope Json)} (h : Gapless log) {backlog : Backlog}
    (hparked : ∀ e ∈ backlog.envelopes, e ∈ log) {e e' : Envelope Json} (hmem : e ∈ log) :
    e' ∈ (backlog.park e).envelopes ↔ e' = e ∨ e' ∈ backlog.envelopes := by
  rw [Backlog.mem_park]
  refine ⟨.imp_right And.left, ?_⟩
  rintro (heq | hold)
  · exact .inl heq
  · by_cases hplace : e'.aggregateId = e.aggregateId ∧ e'.sequenceNumber = e.sequenceNumber
    · exact .inl (h.eq_of_place hmem (hparked e' hold) hplace.1 hplace.2)
    · exact .inr ⟨hold, hplace⟩

/-- A call to a runner. -/
inductive RunnerCall where
  | submit (e : Envelope Json)
  | retry

namespace Runner
variable {ω : Type} [Journal ω]

def answer (r : Runner ω) : RunnerCall → StateM ω (List AppliedEvent × Runner ω)
  | .submit e => do
    match ← r.apply e with
    | (.ok (.applied progress), r) => pure (progress.applied, r)
    | (_, r) => pure ([], r)
  | .retry => do
    let (progress, r) ← r.retryParked
    pure (progress.applied, r)

/-- Carries out calls one after another and collects what they applied. -/
def answerAll (r : Runner ω) : List RunnerCall → StateM ω (List AppliedEvent × Runner ω)
  | [] => pure ([], r)
  | call :: calls => do
    let (first, r) ← r.answer call
    let (rest, r) ← r.answerAll calls
    pure (first ++ rest, r)

end Runner

namespace Behaviour
variable {σ : Type} (b : Behaviour σ)

/-- The envelopes taken so far are the beginnings of their streams, up to the cursors. -/
structure Taken (log taken : List (Envelope Json)) (w : Trial σ) : Prop where
  received : w.received = taken.filter fun e => b.handles e.eventType
  stream : ∀ id, streamOf taken id = (streamOf log id).take (w.cursor b.name id)
  bound : ∀ id, w.cursor b.name id ≤ (streamOf log id).length

variable {b}

theorem Taken.start (log : List (Envelope Json)) (model : σ) : b.Taken log [] (.start model) where
  received := rfl
  stream _ := rfl
  bound _ := Nat.zero_le _

theorem Taken.still {log taken : List (Envelope Json)} {a w : Trial σ} (h : b.Taken log taken a)
    (hstill : b.observation.Still a w) : b.Taken log taken w where
  received := (congrArg Prod.snd hstill.model).trans h.received
  stream id := (h.stream id).trans (congrArg (List.take · _) (congrFun hstill.cursor id).symm)
  bound id := Nat.le_trans (Nat.le_of_eq (congrFun hstill.cursor id)) (h.bound id)

theorem received_of_takes {a w : Trial σ} {e : Envelope Json}
    (h : b.observation.Takes b.projection a e w) :
    w.received = a.received ++ [e].filter fun e => b.handles e.eventType := by
  have hmodel := h.model
  change if b.handles e.eventType = true then w.received = a.received ++ [e]
    else (w.model, w.received) = (a.model, a.received) at hmodel
  by_cases hhandles : b.handles e.eventType = true
  · rw [if_pos hhandles] at hmodel
    rw [hmodel, List.filter_cons, if_pos hhandles, List.filter_nil]
  · rw [if_neg hhandles] at hmodel
    rw [List.filter_cons, if_neg hhandles, List.filter_nil, List.append_nil]
    exact congrArg Prod.snd hmodel

theorem Taken.takes {log taken : List (Envelope Json)} (hlog : Gapless log) {a w : Trial σ}
    (h : b.Taken log taken a) {e : Envelope Json} (hmem : e ∈ log)
    (htakes : b.observation.Takes b.projection a e w) : b.Taken log (taken ++ [e]) w := by
  obtain ⟨_, hplace⟩ := hlog.getElem?_streamOf hmem
  have hnext : e.sequenceNumber = a.cursor b.name e.aggregateId + 1 := htakes.next
  have hcursor (id : AggregateId) : w.cursor b.name id =
      if id = e.aggregateId then e.sequenceNumber else a.cursor b.name id :=
    (congrFun htakes.cursor id).trans (Function.update_apply _ _ _ _)
  constructor
  · rw [received_of_takes htakes, h.received, List.filter_append]
  · intro id
    rw [hcursor, streamOf, List.filter_append, ← streamOf, h.stream]
    by_cases hid : id = e.aggregateId
    · subst hid
      rw [if_pos rfl, hnext, List.take_add_one]
      rw [hnext, Nat.add_sub_cancel] at hplace
      rw [hplace]
      simp
    · rw [if_neg hid]
      simp [Ne.symm hid]
  · intro id
    rw [hcursor]
    by_cases hid : id = e.aggregateId
    · subst hid
      have hlt := (List.getElem?_eq_some_iff.mp hplace).1
      rw [if_pos rfl]
      omega
    · rw [if_neg hid]
      exact h.bound id

theorem Taken.consumes {log : List (Envelope Json)} (hlog : Gapless log) {a w : Trial σ}
    {es : List (Envelope Json)} (hes : b.observation.Consumes b.projection a es w)
    (hmem : ∀ e ∈ es, e ∈ log) {taken : List (Envelope Json)} (h : b.Taken log taken a) :
    b.Taken log (taken ++ es) w := by
  induction hes generalizing taken with
  | nil still =>
    rw [List.append_nil]
    exact h.still still
  | cons takes _ ih =>
    rw [List.forall_mem_cons] at hmem
    rw [List.append_cons]
    exact ih hmem.2 (h.takes hlog hmem.1 takes)

variable (b)

/-- A runner for the behaviour that has reported `applied` so far: it has taken the beginning
of each stream, and what it has parked waits. -/
structure Delivering (log : List (Envelope Json)) (applied : List AppliedEvent)
    (r : Runner (Trial σ)) (w : Trial σ) : Prop where
  runner : r = b.runner.withBacklog r.backlog
  waits : r.Waits b.observation w
  parked : ∀ e ∈ r.backlog.envelopes, e ∈ log
  taken : ∃ taken, applied = taken.map b.projection.report ∧ b.Taken log taken w

variable {b}

theorem Delivering.start (log : List (Envelope Json)) (model : σ) :
    b.Delivering log [] b.runner (.start model) where
  runner := rfl
  waits _ hmem := absurd hmem List.not_mem_nil
  parked _ hmem := absurd hmem List.not_mem_nil
  taken := ⟨[], rfl, .start log model⟩

theorem Delivering.lawful {log : List (Envelope Json)} {applied : List AppliedEvent}
    {r : Runner (Trial σ)} {w : Trial σ} (h : b.Delivering log applied r w) :
    b.observation.Lawful r.projection r.cursors := by
  rw [h.runner]
  exact b.lawful

theorem Delivering.projection_eq {log : List (Envelope Json)} {applied : List AppliedEvent}
    {r : Runner (Trial σ)} {w : Trial σ} (h : b.Delivering log applied r w) :
    r.projection = b.projection := by
  rw [h.runner]
  rfl

theorem Delivering.withBacklog {log : List (Envelope Json)} {applied : List AppliedEvent}
    {r : Runner (Trial σ)} {w : Trial σ} (h : b.Delivering log applied r w) (backlog : Backlog) :
    r.withBacklog backlog = b.runner.withBacklog backlog := by
  rw [h.runner]
  rfl

theorem Delivering.still {log : List (Envelope Json)} {applied : List AppliedEvent}
    {r r' : Runner (Trial σ)} {a w : Trial σ} (h : b.Delivering log applied r a)
    (hstill : b.observation.Still a w) (hrunner : r' = b.runner.withBacklog r'.backlog)
    (hwaits : r'.Waits b.observation w) (hparked : ∀ e ∈ r'.backlog.envelopes, e ∈ log) :
    b.Delivering log applied r' w where
  runner := hrunner
  waits := hwaits
  parked := hparked
  taken := by
    obtain ⟨taken, happlied, htaken⟩ := h.taken
    exact ⟨taken, happlied, htaken.still hstill⟩

theorem Delivering.answer {log : List (Envelope Json)} (hlog : Gapless log)
    {applied : List AppliedEvent} {r : Runner (Trial σ)} {w : Trial σ}
    (h : b.Delivering log applied r w) {call : RunnerCall}
    (hcall : ∀ e, call = .submit e → e ∈ log) :
    b.Delivering log (applied ++ (r.answer call w).1.1) (r.answer call w).1.2 (r.answer call w).2 := by
  cases call with
  | retry =>
    rw [Runner.answer, bind_apply, Runner.retryParked_of_waits h.lawful h.waits]
    exact (List.append_nil applied).symm ▸ h
  | submit e =>
    have hwaits := Runner.waits_apply h.lawful (e := e) h.waits
    have hcases := Runner.apply_cases h.lawful e w
    rw [Runner.answer, bind_apply]
    generalize r.apply e w = step at hwaits hcases ⊢
    cases hcases with
    | unnumbered => exact (List.append_nil applied).symm ▸ h
    | duplicate _ still =>
      exact (List.append_nil applied).symm ▸ h.still still h.runner hwaits h.parked
    | refused _ _ _ still =>
      exact (List.append_nil applied).symm ▸ h.still still h.runner hwaits h.parked
    | parked _ still =>
      refine (List.append_nil applied).symm ▸ h.still still ?_ hwaits ?_
      · exact h.withBacklog _
      · intro e' hmem
        rcases Backlog.mem_park.mp hmem with rfl | ⟨hmem, _⟩
        · exact hcall _ rfl
        · exact h.parked e' hmem
    | applied es stalled consumes hparked _ =>
      obtain ⟨taken, happlied, htaken⟩ := h.taken
      have hmem : ∀ e' ∈ e :: es, e' ∈ log := by
        rw [List.forall_mem_cons]
        exact ⟨hcall e rfl, fun e' he' => h.parked e' (hparked e' he').2⟩
      rw [h.projection_eq] at consumes
      refine ⟨h.withBacklog _, hwaits, ?_, taken ++ (e :: es), ?_,
        htaken.consumes hlog consumes hmem⟩
      · intro e' hmem'
        exact h.parked e' (Backlog.mem_prune.mp hmem').1
      · rw [List.map_append, ← happlied, h.projection_eq]
        rfl

theorem Delivering.answerAll {log : List (Envelope Json)} (hlog : Gapless log)
    {applied : List AppliedEvent} {r : Runner (Trial σ)} {w : Trial σ}
    (h : b.Delivering log applied r w) {calls : List RunnerCall}
    (hcalls : ∀ e, .submit e ∈ calls → e ∈ log) :
    b.Delivering log (applied ++ (r.answerAll calls w).1.1) (r.answerAll calls w).1.2
      (r.answerAll calls w).2 := by
  induction calls generalizing applied r w with
  | nil => exact (List.append_nil applied).symm ▸ h
  | cons call calls ih =>
    have hcall : ∀ e, call = .submit e → e ∈ log := fun e he => hcalls e (he ▸ List.mem_cons_self)
    have hfirst := h.answer hlog hcall
    have hrest := ih hfirst fun e he => hcalls e (List.mem_cons_of_mem _ he)
    rw [List.append_assoc] at hrest
    exact hrest

structure Unmoved (b : Behaviour σ) (w w' : Trial σ) : Prop where
  model : w'.model = w.model
  received : w'.received = w.received
  cursor : ∀ id, w'.cursor b.name id = w.cursor b.name id

theorem unmoved_of_still {w w' : Trial σ} (h : b.observation.Still w w') : b.Unmoved w w' where
  model := congrArg Prod.fst h.model
  received := congrArg Prod.snd h.model
  cursor id := congrFun h.cursor id

variable (b)

/-- What a runner answers to an envelope: the next one of its stream is refused, which moves
nothing, or applied; one that is behind moves nothing; one that is ahead is added to what is
parked. No cursor ever decreases. -/
def Answers (r : Runner (Trial σ)) (w : Trial σ) (e : Envelope Json) :
    (Except ProjectionError ApplyOutcome × Runner (Trial σ)) × Trial σ → Prop
  | ((.error _, r'), w') => e.sequenceNumber = w.cursor b.name e.aggregateId + 1 ∧
      r' = r ∧ b.Unmoved w w'
  | ((.ok .duplicate, r'), w') => e.sequenceNumber ≤ w.cursor b.name e.aggregateId ∧
      r' = r ∧ b.Unmoved w w'
  | ((.ok .parked, r'), w') => w.cursor b.name e.aggregateId + 1 < e.sequenceNumber ∧
      b.Unmoved w w' ∧ ∃ backlog, r' = r.withBacklog backlog ∧
        ∀ e', e' ∈ backlog.envelopes ↔ e' = e ∨ e' ∈ r.backlog.envelopes
  | ((.ok (.applied _), _), w') => e.sequenceNumber = w.cursor b.name e.aggregateId + 1 ∧
      e.sequenceNumber ≤ w'.cursor b.name e.aggregateId ∧
        ∀ id, w.cursor b.name id ≤ w'.cursor b.name id

/-- Exactly-once, in-order delivery of a log, as far as the cursors have come. -/
structure Delivered (log : List (Envelope Json)) (applied : List AppliedEvent)
    (r : Runner (Trial σ)) (w : Trial σ) : Prop where
  bound : ∀ id, w.cursor b.name id ≤ (streamOf log id).length
  consumed : ∀ id, applied.filter (fun event => event.aggregateId = id) =
    ((streamOf log id).take (w.cursor b.name id)).map b.projection.report
  numbered : ∀ id, (applied.filter fun event => event.aggregateId = id).map
    AppliedEvent.sequenceNumber = List.range' 1 (w.cursor b.name id)
  received : ∀ id, streamOf w.received id =
    ((streamOf log id).take (w.cursor b.name id)).filter fun e => b.handles e.eventType
  waits : ∀ e ∈ r.backlog.envelopes, e ∈ log ∧ w.cursor b.name e.aggregateId + 1 < e.sequenceNumber
  retry : r.retryParked w = ((.none, r), w)
  answers : ∀ e ∈ log, b.Answers r w e (r.apply e w)

variable {b}

theorem Delivering.answers {log : List (Envelope Json)} (hlog : Gapless log)
    {applied : List AppliedEvent} {r : Runner (Trial σ)} {w : Trial σ}
    (h : b.Delivering log applied r w) {e : Envelope Json} (hmem : e ∈ log) :
    b.Answers r w e (r.apply e w) := by
  have hcases := Runner.apply_cases h.lawful e w
  generalize r.apply e w = step at hcases ⊢
  cases hcases with
  | unnumbered hzero => exact absurd hzero (Nat.ne_of_gt (hlog.getElem?_streamOf hmem).1)
  | duplicate hbehind still => exact ⟨hbehind, rfl, unmoved_of_still still⟩
  | refused _ hnext _ still => exact ⟨hnext, rfl, unmoved_of_still still⟩
  | parked hahead still =>
    exact ⟨hahead, unmoved_of_still still, _, rfl, fun e' => hlog.mem_park h.parked hmem⟩
  | applied es stalled consumes =>
    obtain ⟨hnext, hpassed⟩ := consumes.head
    exact ⟨hnext, hpassed, consumes.cursor_le⟩

theorem Delivering.delivered {log : List (Envelope Json)} (hlog : Gapless log)
    {applied : List AppliedEvent} {r : Runner (Trial σ)} {w : Trial σ}
    (h : b.Delivering log applied r w) : b.Delivered log applied r w := by
  obtain ⟨taken, happlied, htaken⟩ := h.taken
  have hconsumed (id : AggregateId) : applied.filter (fun event => event.aggregateId = id) =
      ((streamOf log id).take (w.cursor b.name id)).map b.projection.report := by
    rw [happlied, List.filter_map, ← htaken.stream]
    rfl
  refine ⟨htaken.bound, hconsumed, fun id => ?_, fun id => ?_, fun e hmem => ?_, ?_, fun e hmem => ?_⟩
  · rw [hconsumed, List.map_map]
    change List.map Envelope.sequenceNumber _ = _
    rw [List.map_take, hlog, List.take_range'_of_length_ge (htaken.bound id)]
  · rw [htaken.received, ← htaken.stream, streamOf, streamOf, List.filter_filter, List.filter_filter]
    simp only [Bool.and_comm]
  · exact ⟨h.parked e hmem, h.waits e hmem⟩
  · exact Runner.retryParked_of_waits h.lawful h.waits
  · exact h.answers hlog hmem

end Behaviour

/-- However the envelopes of a gapless log are submitted to a runner, in any order, repeated
or left out, with retries in between and failures at any call, they are delivered exactly
once and in order, up to the cursors. -/
theorem answerAll_delivers {σ : Type} (b : Behaviour σ) (model : σ) (log : List (Envelope Json))
    (hlog : Gapless log) (calls : List RunnerCall) (hcalls : ∀ e, .submit e ∈ calls → e ∈ log) :
    let after := b.runner.answerAll calls (.start model)
    b.Delivered log after.1.1 after.1.2 after.2 :=
  ((Behaviour.Delivering.start log model).answerAll hlog hcalls).delivered hlog

/-- An event of one stream that has no content. -/
def plainEnvelope (number : Nat) : Envelope Json where
  eventId := ⟨BitVec.ofNat 128 number⟩
  aggregateId := ⟨⟨0⟩⟩
  aggregateType := "counter"
  sequenceNumber := number
  eventType := "counted"
  occurredAt := ⟨⟨2000, 1, 1, by decide, by decide⟩, ⟨0, 0, 0, 0, by decide, by decide, by decide,
    by decide⟩, by decide⟩
  payload := .null

/-- A counter that refuses the first call. -/
def flakyCounter : Behaviour Nat where
  name := "counter"
  handles _ := true
  receive call _ count := if call = 0 then .error (.store "unavailable") else .ok (count + 1)
  reset _ _ := .ok 0

theorem answerAll_delivers_flakyCounter :
    let log := [plainEnvelope 1, plainEnvelope 2]
    let calls := [.submit (plainEnvelope 2), .submit (plainEnvelope 1), .retry,
      .submit (plainEnvelope 1)]
    Gapless log ∧ (∀ e, .submit e ∈ calls → e ∈ log) ∧
      let after := flakyCounter.runner.answerAll calls (.start 0)
      flakyCounter.Delivered log after.1.1 after.1.2 after.2 := by
  intro log calls
  have hlog : Gapless log := by
    intro id
    by_cases hid : (plainEnvelope 1).aggregateId = id
    · subst hid
      have hstream : streamOf log (plainEnvelope 1).aggregateId = log := by
        simp [streamOf, log, plainEnvelope]
      rw [hstream]
      rfl
    · have hid' : (plainEnvelope 2).aggregateId ≠ id := hid
      simp [streamOf, log, hid, hid']
  have hcalls : ∀ e, .submit e ∈ calls → e ∈ log := by
    intro e he
    simp only [calls, List.mem_cons, RunnerCall.submit.injEq, reduceCtorEq, false_or,
      List.not_mem_nil, or_false] at he
    rcases he with rfl | rfl | rfl <;> simp [log]
  exact ⟨hlog, hcalls, answerAll_delivers flakyCounter 0 log hlog calls hcalls⟩

end IdentityLedger
