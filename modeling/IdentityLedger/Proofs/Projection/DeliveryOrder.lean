import IdentityLedger.Proofs.Engine.ReadModel
import IdentityLedger.Proofs.Projection.Convergence
import IdentityLedger.Proofs.Projection.Submission

/-!
# The order of delivery

Whatever has been submitted to a runner is behind the cursor of its stream or parked. Once
every envelope of a log has been submitted, in whatever order and however often, one that
was still parked would wait for an envelope that never came: there is none. So the cursors,
the rows and what was applied are those of the log in its own order.
-/
namespace IdentityLedger

theorem EventLog.Consistent.gapless {log : EventLog} (h : log.Consistent) : Gapless log.envelopes := by
  intro id
  have hstream : streamOf log.envelopes id = (log.stream id).map StoredEvent.envelope := by
    rw [h.stream_eq, streamOf, EventLog.envelopes, List.filter_map]
    rfl
  rw [hstream, List.map_map, List.length_map]
  exact h.numbered id

/-- What an answer to an envelope reports as applied. -/
def ApplyOutcome.events : ApplyOutcome → List AppliedEvent
  | applied progress => progress.applied
  | _ => []

namespace Runner
variable {ω : Type}

/-- The numbers of what was applied of a stream, in the order in which it was. -/
def appliedOf (id : AggregateId) (outcomes : List (Except ProjectionError ApplyOutcome)) : List Nat :=
  outcomes.flatMap fun
    | .ok outcome => (outcome.events.filter fun event => event.aggregateId = id).map
        AppliedEvent.sequenceNumber
    | .error _ => []

theorem appliedOf_concat (id : AggregateId) (outcomes : List (Except ProjectionError ApplyOutcome))
    (outcome : ApplyOutcome) : appliedOf id (outcomes ++ [.ok outcome]) = appliedOf id outcomes ++
      (outcome.events.filter fun event => event.aggregateId = id).map AppliedEvent.sequenceNumber := by
  rw [appliedOf, List.flatMap_append, List.flatMap_singleton]
  rfl

variable [Journal ω]

/-- Submits envelopes one after another, whatever comes of them. -/
def submitAll (r : Runner ω) :
    List (Envelope Json) → StateM ω (List (Except ProjectionError ApplyOutcome) × Runner ω)
  | [] => pure ([], r)
  | e :: es => do
    let (outcome, r) ← r.apply e
    let (outcomes, r) ← r.submitAll es
    pure (outcome :: outcomes, r)

end Runner

namespace RowModel
variable {ω : Type} [Journal ω] {m : RowModel ω} {log : EventLog} {r r' : Runner ω} {w w' : ω}
variable {e : Envelope Json} {outcome : Except ProjectionError ApplyOutcome}

def Accounts (m : RowModel ω) (r : Runner ω) (w : ω) (e : Envelope Json) : Prop :=
  e.sequenceNumber ≤ m.cursor w e.aggregateId ∨ e ∈ r.backlog.envelopes

/-- Where nothing is handed back, a submission accounts for its envelope, and for what was
accounted for before. -/
theorem accounts_of_conserves (h : r.Conserves m.observation e w [] r' w') {e' : Envelope Json}
    (hold : e' = e ∨ m.Accounts r w e') : m.Accounts r' w' e' := by
  have hplaced : r'.Placed m.observation (fun _ => False) w' e' :=
    h.keeps_placed (fun _ => False.elim) (fun _ hmem => absurd hmem List.not_mem_nil)
      (hold.imp_right fun hplace => hplace.imp_right .inl)
  exact hplaced.imp_right fun hplace => hplace.resolve_right id

theorem Smooth.applied_eq (h : m.Smooth r e w ((outcome, r'), w')) :
    ∃ answer, outcome = .ok answer ∧ answer.stalled = [] ∧ ∀ id,
      List.range' 1 (m.cursor w id) ++ (answer.events.filter fun event => event.aggregateId = id).map
        AppliedEvent.sequenceNumber = List.range' 1 (m.cursor w' id) := by
  cases h with
  | duplicate _ still | parked _ still =>
    have hcursor : m.cursor w' = m.cursor w := still.cursor
    refine ⟨_, rfl, rfl, fun id => ?_⟩
    rw [hcursor]
    exact List.append_nil _
  | applied es consumes =>
    refine ⟨_, rfl, rfl, fun id => ?_⟩
    rw [ApplyOutcome.events, List.filter_map, List.map_map]
    exact consumes.numbered id

/-- A reliable read model has taken an envelope: the runner follows the log, accounts for the
envelope and for what it accounted for before, and has applied on from its cursors. -/
structure Accepted (m : RowModel ω) (log : EventLog) (r : Runner ω) (e : Envelope Json) (w : ω)
    (answer : ApplyOutcome) (r' : Runner ω) (w' : ω) : Prop where
  follows : m.Follows log r' w'
  steady : m.steady w'
  stalled : answer.stalled = []
  accounts : ∀ e', e' = e ∨ m.Accounts r w e' → m.Accounts r' w' e'
  applied : ∀ id, List.range' 1 (m.cursor w id) ++
    (answer.events.filter fun event => event.aggregateId = id).map AppliedEvent.sequenceNumber =
      List.range' 1 (m.cursor w' id)

theorem Follows.accepts (hlog : log.Lawful) (h : m.Follows log r w) (hsteady : m.steady w)
    (hmem : e ∈ log.envelopes) :
    ∃ answer r' w', r.apply e w = ((.ok answer, r'), w') ∧ m.Accepted log r e w answer r' w' := by
  have hsmooth := h.smooth hlog hsteady hmem
  have hfollows := h.apply hlog hmem
  have hconserves := Runner.conserves_apply h.lawful hlog.consistent.gapless h.parked hmem w
  obtain ⟨answer, r', w', happly, hpasses, _⟩ := h.apply_steady hlog hsteady hmem
  rw [happly] at hsmooth hfollows hconserves
  obtain ⟨_, ⟨⟩, hstalled, happlied⟩ := hsmooth.applied_eq
  rw [Runner.handedBack, hstalled] at hconserves
  exact ⟨_, r', w', happly, hfollows, m.reliable.later hsteady hpasses.later, hstalled,
    fun _ => accounts_of_conserves hconserves, happlied⟩

/-- A runner that accounts for all of a log is at its end: an envelope that follows a cursor
would be neither behind it nor waiting. -/
theorem Follows.atEnd (hlog : log.Lawful) (h : m.Follows log r w)
    (hall : ∀ e ∈ log.envelopes, m.Accounts r w e) : m.AtEnd log w := by
  intro id
  refine Nat.le_antisymm (h.shows.bound id) (Nat.le_of_not_lt fun hlt => ?_)
  obtain ⟨stored, hstored, hid, hnumber⟩ := hlog.consistent.exists_stored hlt
  subst hid
  rcases hall stored.envelope (List.mem_map_of_mem hstored) with hbehind | hparked
  · have hle : stored.sequenceNumber ≤ m.cursor w stored.aggregateId := hbehind
    omega
  · have hwaits : m.cursor w stored.aggregateId + 1 < stored.sequenceNumber := h.waits _ hparked
    omega

variable (m) (log)

/-- A runner over a reliable read model that has been fed envelopes of a log: it follows the
log and accounts for all of them, nothing has failed, and what it has applied of each stream
is numbered from 1 up to the cursor. -/
structure Fed (fed : List (Envelope Json)) (outcomes : List (Except ProjectionError ApplyOutcome))
    (r : Runner ω) (w : ω) : Prop where
  follows : m.Follows log r w
  steady : m.steady w
  accounts : ∀ e ∈ fed, m.Accounts r w e
  known : ∀ e ∈ fed, e ∈ log.envelopes
  answered : ∀ outcome ∈ outcomes, ∃ answer : ApplyOutcome, outcome = .ok answer ∧ answer.stalled = []
  applied : ∀ id, Runner.appliedOf id outcomes = List.range' 1 (m.cursor w id)

variable {m} {log} {fed : List (Envelope Json)}
variable {outcomes : List (Except ProjectionError ApplyOutcome)}

theorem Fed.start (hcursor : m.cursor w = fun _ => 0) (htable : m.table w = .empty)
    (hsteady : m.steady w) : m.Fed log [] [] m.runner w where
  follows := .start hcursor htable
  steady := hsteady
  accounts _ hmem := absurd hmem List.not_mem_nil
  known _ hmem := absurd hmem List.not_mem_nil
  answered _ hmem := absurd hmem List.not_mem_nil
  applied id := by
    rw [hcursor]
    rfl

theorem Fed.apply (hlog : log.Lawful) (h : m.Fed log fed outcomes r w) (hmem : e ∈ log.envelopes) :
    m.Fed log (fed ++ [e]) (outcomes ++ [(r.apply e w).1.1]) (r.apply e w).1.2 (r.apply e w).2 := by
  obtain ⟨answer, r', w', happly, haccepted⟩ := h.follows.accepts hlog h.steady hmem
  rw [happly]
  refine ⟨haccepted.follows, haccepted.steady, ?_, ?_, ?_, ?_⟩
  · intro e' hmem'
    refine haccepted.accounts e' ?_
    exact (List.mem_append.mp hmem').symm.imp List.mem_singleton.mp (h.accounts e')
  · intro e' hmem'
    rcases List.mem_append.mp hmem' with hold | hnew
    · exact h.known e' hold
    · rw [List.mem_singleton.mp hnew]
      exact hmem
  · intro outcome' hmem'
    rcases List.mem_append.mp hmem' with hold | hnew
    · exact h.answered outcome' hold
    · exact ⟨answer, List.mem_singleton.mp hnew, haccepted.stalled⟩
  · intro id
    rw [Runner.appliedOf_concat, h.applied, haccepted.applied]

theorem Fed.submitAll (hlog : log.Lawful) (h : m.Fed log fed outcomes r w)
    {es : List (Envelope Json)} (hes : ∀ e ∈ es, e ∈ log.envelopes) :
    m.Fed log (fed ++ es) (outcomes ++ (r.submitAll es w).1.1) (r.submitAll es w).1.2
      (r.submitAll es w).2 := by
  induction es generalizing fed outcomes r w with
  | nil =>
    rw [List.append_nil]
    exact (List.append_nil outcomes).symm ▸ h
  | cons e es ih =>
    rw [List.forall_mem_cons] at hes
    have hrest := ih (h.apply hlog hes.1) hes.2
    rw [List.append_assoc, List.append_assoc] at hrest
    exact hrest

theorem Fed.atEnd (hlog : log.Lawful) (h : m.Fed log fed outcomes r w)
    (hall : ∀ e ∈ log.envelopes, e ∈ fed) : m.AtEnd log w :=
  h.follows.atEnd hlog fun e he => h.accounts e (hall e he)

end RowModel

namespace Memory

/-- What a runner in memory has answered and left behind once it has been fed a whole log. -/
structure Delivered (log : EventLog) (outcomes : List (Except ProjectionError ApplyOutcome))
    (r : Runner Memory) (m : Memory) : Prop where
  answered : ∀ outcome ∈ outcomes, ∃ answer : ApplyOutcome, outcome = .ok answer ∧ answer.stalled = []
  parked : r.parkedCount = 0
  cursor : ∀ id, (r.cursor id m).1 = (log.stream id).length
  rows : m.rows = .ofCommits log.commits
  applied : ∀ id, Runner.appliedOf id outcomes = List.range' 1 (log.stream id).length

theorem submitAll_delivered {log : EventLog} (hlog : log.Lawful) (es : List (Envelope Json))
    (hes : ∀ e, e ∈ es ↔ e ∈ log.envelopes) :
    let after := rowModel.runner.submitAll es .empty
    Delivered log after.1.1 after.1.2 after.2 := by
  intro after
  have hfed : rowModel.Fed log es after.1.1 after.1.2 after.2 :=
    (RowModel.Fed.start rfl rfl trivial).submitAll hlog fun e he => (hes e).mp he
  have hend := hfed.atEnd hlog fun e he => (hes e).mpr he
  constructor
  · exact hfed.answered
  · rw [Runner.parkedCount, Backlog.size, hfed.follows.backlog_eq_nil hlog hend]
    rfl
  · intro id
    rw [Runner.cursor_apply hfed.follows.lawful]
    exact hend id
  · exact hfed.follows.shows.eq_ofCommits hlog hend
  · intro id
    rw [hfed.applied, hend]

end Memory

/-- However the envelopes of a log that commands have written are submitted to a runner in
memory, in any order and each at least once, nothing fails or is left over, every stream is
applied once and in order, and the rows and the cursors are those that the log leaves when
it is submitted as it was committed. -/
theorem submitAll_order_irrelevant (log : EventLog) (hlog : log.Written)
    (es : List (Envelope Json)) (hes : ∀ e, e ∈ es ↔ e ∈ log.envelopes) :
    let after := Memory.rowModel.runner.submitAll es .empty
    let ordered := Memory.rowModel.runner.submitAll log.envelopes .empty
    Memory.Delivered log after.1.1 after.1.2 after.2 ∧ after.2.rows = ordered.2.rows ∧
      ∀ id, (after.1.2.cursor id after.2).1 = (ordered.1.2.cursor id ordered.2).1 := by
  intro after ordered
  have hafter := Memory.submitAll_delivered hlog.lawful es hes
  have hordered := Memory.submitAll_delivered hlog.lawful log.envelopes fun _ => Iff.rfl
  refine ⟨hafter, hafter.rows.trans hordered.rows.symm, fun id => ?_⟩
  exact (hafter.cursor id).trans (hordered.cursor id).symm

/-- The log of a minted profile backwards, and then once more as it is. -/
theorem submitAll_order_irrelevant_mintedLog :
    let es := mintedLog.envelopes.reverse ++ mintedLog.envelopes
    mintedLog.Written ∧ (∀ e, e ∈ es ↔ e ∈ mintedLog.envelopes) ∧
      let after := Memory.rowModel.runner.submitAll es .empty
      let ordered := Memory.rowModel.runner.submitAll mintedLog.envelopes .empty
      Memory.Delivered mintedLog after.1.1 after.1.2 after.2 ∧ after.2.rows = ordered.2.rows ∧
        ∀ id, (after.1.2.cursor id after.2).1 = (ordered.1.2.cursor id ordered.2).1 := by
  intro es
  have hlog := mintedLog_written
  have hes : ∀ e, e ∈ es ↔ e ∈ mintedLog.envelopes := by
    intro e
    simp [es]
  exact ⟨hlog, hes, submitAll_order_irrelevant mintedLog hlog es hes⟩

end IdentityLedger
