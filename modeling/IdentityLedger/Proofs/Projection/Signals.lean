import IdentityLedger.Proofs.Bus
import IdentityLedger.Proofs.Projection.Conservation
import IdentityLedger.Proofs.Projection.Workshop

/-!
# What subscribers are told

Every signal is for one step of a cursor: a runner that takes the next envelope of a stream
reports it, and the report of a handled one is published wherever the step came from, a
dispatch, a retry, a catch-up or what was parked. So the signals of a projection in a stream
are at all times those of the handled events up to its cursor, in their order.
-/
namespace IdentityLedger

/-- The signals of a projection for the handled ones among applied events. -/
def signalsOf (projection : String) (applied : List AppliedEvent) : List ProjectionUpdated :=
  (applied.filter AppliedEvent.handled).map (Outbox.updateOf projection)

theorem signalsOf_append (projection : String) (applied more : List AppliedEvent) :
    signalsOf projection (applied ++ more) = signalsOf projection applied ++ signalsOf projection more := by
  rw [signalsOf, List.filter_append, List.map_append]
  rfl

/-- A signal of a projection in a stream. -/
def ProjectionUpdated.isOf (projection : String) (id : AggregateId) (update : ProjectionUpdated) : Bool :=
  update.projection = projection ∧ update.aggregateId = id

def Progress.of : Except ProjectionError ApplyOutcome → Progress
  | .ok (.applied progress) => progress
  | _ => .none

/-- The signals of a projection for the first events of a stream, as many as its cursor says. -/
def signalsUpTo (log : List (Envelope Json)) (projection : String) (handles : String → Bool)
    (id : AggregateId) (cursor : Nat) : List ProjectionUpdated :=
  (((streamOf log id).take cursor).filter fun e => handles e.eventType).map fun e =>
    ⟨projection, id, e.sequenceNumber, e.eventType⟩

namespace Outbox
variable {ω : Type} [Journal ω] (o : Outbox) (w : ω)

theorem updates_requeue (failure : FailedUpdate) (error : ProjectionError) :
    (o.requeue failure error w).1.updates = o.updates := by
  rw [requeue]
  cases o.queued? failure.projection failure.envelope.eventId <;> rfl

theorem updates_recordStalled (projection : String) (stalled : List StalledEnvelope) :
    (recordStalled projection stalled o w).1.updates = o.updates := by
  induction stalled generalizing o w with
  | nil => rfl
  | cons s stalled ih => exact ih _ _

theorem updates_settle (projection : String) (progress : Progress) :
    (o.settle projection progress w).1.1 = signalsOf projection progress.applied ∧
      (o.settle projection progress w).1.2.updates =
        (signalsOf projection progress.applied).foldl Bus.publish o.updates :=
  ⟨rfl, updates_recordStalled _ _ projection progress.stalled⟩

end Outbox

theorem Gapless.take_streamOf {log : List (Envelope Json)} (h : Gapless log) (id : AggregateId)
    (number : Nat) : (streamOf log id).take number =
      (streamOf log id).filter fun e => e.sequenceNumber ≤ number := by
  have hnumbers := h id
  generalize streamOf log id = stream at hnumbers
  have hat (index : Nat) (hindex : index < stream.length) :
      stream[index].sequenceNumber = index + 1 := by
    have hplace := congrArg (·[index]?) hnumbers
    rw [List.getElem?_map, List.getElem?_eq_getElem hindex, List.getElem?_range' hindex] at hplace
    simpa [Nat.add_comm] using hplace
  have hfirst : ∀ e ∈ stream.take number, e.sequenceNumber ≤ number := by
    intro e hmem
    obtain ⟨index, hindex, rfl⟩ := List.mem_take_iff_getElem.mp hmem
    rw [hat]
    omega
  have hlast : ∀ e ∈ stream.drop number, ¬e.sequenceNumber ≤ number := by
    intro e hmem
    obtain ⟨index, hindex, rfl⟩ := List.mem_drop_iff_getElem.mp hmem
    rw [hat]
    omega
  conv_rhs => rw [← List.take_append_drop number stream]
  rw [List.filter_append, List.filter_eq_self.mpr (by simpa using hfirst),
    List.filter_eq_nil_iff.mpr (by simpa using hlast), List.append_nil]

section
variable {ω : Type} {cursor : String → ω → AggregateId → Nat}
variable {handles : String → String → Bool} {log : List (Envelope Json)}
variable {sent : List ProjectionUpdated} {w w' : ω} {e : Envelope Json}

variable (cursor handles log) in
/-- The signals of every projection in every stream are those up to its cursor. -/
structure Signalled (sent : List ProjectionUpdated) (w : ω) : Prop where
  bound : ∀ name id, cursor name w id ≤ (streamOf log id).length
  exact : ∀ name id, sent.filter (ProjectionUpdated.isOf name id) =
    signalsUpTo log name (handles name) id (cursor name w id)

namespace Signalled

/-- Only the cursors of the state matter. -/
theorem frame (h : Signalled cursor handles log sent w)
    (hcursor : ∀ name, cursor name w' = cursor name w) : Signalled cursor handles log sent w' where
  bound name id := by
    rw [hcursor]
    exact h.bound name id
  exact name id := by
    rw [hcursor]
    exact h.exact name id

theorem takes (hlog : Gapless log) (h : Signalled cursor handles log sent w) {p : Projection ω}
    (hhandles : p.handles = handles p.name) (he : e ∈ log)
    (htakes : (Observation.ofName cursor p.name).Takes p w e w') :
    Signalled cursor handles log (sent ++ signalsOf p.name [p.report e]) w' := by
  obtain ⟨_, hplace⟩ := hlog.getElem?_streamOf he
  have hnext : e.sequenceNumber = cursor p.name w e.aggregateId + 1 := htakes.next
  have hcursor : cursor p.name w' =
      Function.update (cursor p.name w) e.aggregateId e.sequenceNumber := htakes.cursor
  have hlater : ∀ other, other ≠ p.name → cursor other w' = cursor other w := htakes.later
  rw [hnext, Nat.add_sub_cancel] at hplace
  have hother (name : String) (id : AggregateId) (hne : ¬(name = p.name ∧ id = e.aggregateId)) :
      cursor name w' id = cursor name w id ∧
        (signalsOf p.name [p.report e]).filter (ProjectionUpdated.isOf name id) = [] := by
    constructor
    · by_cases hname : name = p.name
      · rw [hname, hcursor, Function.update_of_ne fun hid => hne ⟨hname, hid⟩]
      · rw [hlater name hname]
    · rw [List.filter_eq_nil_iff]
      intro update hmem hof
      obtain ⟨event, hevent, rfl⟩ := List.mem_map.mp hmem
      rw [List.mem_singleton.mp (List.mem_filter.mp hevent).1] at hof
      have hsame : p.name = name ∧ e.aggregateId = id := of_decide_eq_true hof
      exact hne ⟨hsame.1.symm, hsame.2.symm⟩
  constructor
  · intro name id
    by_cases hsame : name = p.name ∧ id = e.aggregateId
    · obtain ⟨rfl, rfl⟩ := hsame
      rw [hcursor, Function.update_self, hnext]
      exact (List.getElem?_eq_some_iff.mp hplace).1
    · rw [(hother name id hsame).1]
      exact h.bound name id
  · intro name id
    rw [List.filter_append, h.exact]
    by_cases hsame : name = p.name ∧ id = e.aggregateId
    · obtain ⟨rfl, rfl⟩ := hsame
      rw [hcursor, Function.update_self, hnext, signalsUpTo, signalsUpTo, List.take_add_one, hplace,
        List.filter_append, List.map_append, ← hhandles]
      congr 1
      cases hhandled : p.handles e.eventType <;>
        simp [signalsOf, Projection.report, Outbox.updateOf, ProjectionUpdated.isOf, hhandled]
    · obtain ⟨hsteady, hnone⟩ := hother name id hsame
      rw [hsteady, hnone, List.append_nil]

theorem consumes (hlog : Gapless log) {p : Projection ω} (hhandles : p.handles = handles p.name)
    {es : List (Envelope Json)} (hes : (Observation.ofName cursor p.name).Consumes p w es w')
    (hmem : ∀ e ∈ es, e ∈ log) (h : Signalled cursor handles log sent w) :
    Signalled cursor handles log (sent ++ signalsOf p.name (es.map p.report)) w' := by
  induction hes generalizing sent with
  | nil still =>
    rw [List.map_nil, signalsOf, List.filter_nil, List.map_nil, List.append_nil]
    refine h.frame fun name => ?_
    by_cases hname : name = p.name
    · rw [hname]
      exact still.cursor
    · exact still.later name hname
  | cons takes _ ih =>
    rw [List.forall_mem_cons] at hmem
    rw [List.map_cons, ← List.singleton_append, signalsOf_append, ← List.append_assoc]
    exact ih hmem.2 (h.takes hlog hhandles hmem.1 takes)

end Signalled

namespace Runner
variable {r r' : Runner ω} {progress more : Progress}

variable (cursor handles log) in
/-- A runner has made some progress. Once what it applied is signalled, the signals are up to
the cursors again. -/
structure Advances (r : Runner ω) (sent : List ProjectionUpdated) (progress : Progress)
    (r' : Runner ω) (w' : ω) : Prop where
  runner : r' = r.withBacklog r'.backlog
  parked : ∀ e ∈ r'.backlog.envelopes, e ∈ log
  stalled : ∀ s ∈ progress.stalled, s.envelope ∈ log
  signalled : Signalled cursor handles log (sent ++ signalsOf r.name progress.applied) w'

theorem Advances.name_eq (h : r.Advances cursor handles log sent progress r' w') :
    r'.name = r.name := by
  rw [h.runner]
  rfl

theorem Advances.trans {r'' : Runner ω} {w'' : ω}
    (h : r.Advances cursor handles log sent progress r' w')
    (h' : r'.Advances cursor handles log (sent ++ signalsOf r.name progress.applied) more r'' w'') :
    r.Advances cursor handles log sent (progress.append more) r'' w'' where
  runner := by
    rw [h'.runner, h.runner]
    rfl
  parked := h'.parked
  stalled s hmem := (List.mem_append.mp hmem).elim (h.stalled s) (h'.stalled s)
  signalled := by
    have hsignalled := h'.signalled
    rw [h.name_eq, List.append_assoc, ← signalsOf_append] at hsignalled
    exact hsignalled

variable [Journal ω]

variable (cursor handles log) in
/-- A runner whose projection handles the types given for its name, and which has parked
envelopes of a log alone. -/
structure Obeys (r : Runner ω) : Prop where
  lawful : (Observation.ofName cursor r.name).Lawful r.projection r.cursors
  handles_eq : r.projection.handles = handles r.name
  parked : ∀ e ∈ r.backlog.envelopes, e ∈ log

theorem Advances.obeys (h : r.Advances cursor handles log sent progress r' w')
    (hr : r.Obeys cursor handles log) : r'.Obeys cursor handles log where
  lawful := by
    rw [h.runner]
    exact hr.lawful
  handles_eq := by
    rw [h.runner]
    exact hr.handles_eq
  parked := h.parked

namespace Obeys

theorem still (hlog : Gapless log) (hr : r.Obeys cursor handles log)
    (h : Signalled cursor handles log sent w) {backlog : Backlog}
    (hparked : ∀ e ∈ backlog.envelopes, e ∈ log)
    (hstill : (Observation.ofName cursor r.name).Still w w') :
    r.Advances cursor handles log sent .none (r.withBacklog backlog) w' where
  runner := rfl
  parked := hparked
  stalled _ hmem := absurd hmem List.not_mem_nil
  signalled := h.consumes hlog hr.handles_eq (.nil hstill) fun _ hmem => absurd hmem List.not_mem_nil

theorem drain (hlog : Gapless log) (hr : r.Obeys cursor handles log)
    (h : Signalled cursor handles log sent w) (id : AggregateId) :
    r.Advances cursor handles log sent (r.drain id w).1.1 (r.drain id w).1.2 (r.drain id w).2 := by
  obtain ⟨es, stalled, w', hdrain, hdrains⟩ := drain_spec hr.lawful id w
  rw [hdrain]
  refine ⟨rfl, fun e' hmem => hr.parked e' (Backlog.mem_prune.mp hmem).1, fun s hmem => ?_, ?_⟩
  · exact hr.parked _ (hdrains.stalls.place (List.mem_map_of_mem hmem)).1
  · exact h.consumes hlog hr.handles_eq hdrains.consumes
      fun e' hmem => hr.parked e' (hdrains.parked e' hmem).2

theorem drainAll (hlog : Gapless log) (hr : r.Obeys cursor handles log)
    (h : Signalled cursor handles log sent w) (ids : List AggregateId) :
    r.Advances cursor handles log sent (r.drainAll ids w).1.1 (r.drainAll ids w).1.2
      (r.drainAll ids w).2 := by
  induction ids generalizing r sent w with
  | nil => exact hr.still hlog h hr.parked (hr.lawful.still.refl w)
  | cons id ids ih =>
    have hfirst := hr.drain hlog h id
    exact hfirst.trans (ih (hfirst.obeys hr) hfirst.signalled)

/-- Whatever comes of an envelope, it is what was applied that is signalled. -/
theorem apply (hlog : Gapless log) (hr : r.Obeys cursor handles log)
    (h : Signalled cursor handles log sent w) (he : e ∈ log) :
    r.Advances cursor handles log sent (.of (r.apply e w).1.1) (r.apply e w).1.2 (r.apply e w).2 := by
  have hcases := apply_cases hr.lawful e w
  generalize r.apply e w = step at hcases
  cases hcases with
  | unnumbered => exact hr.still hlog h hr.parked (hr.lawful.still.refl w)
  | duplicate _ still | refused _ _ _ still => exact hr.still hlog h hr.parked still
  | parked _ still =>
    refine hr.still hlog h (fun e' hmem => ?_) still
    rcases Backlog.mem_park.mp hmem with rfl | ⟨hmem, _⟩
    · exact he
    · exact hr.parked e' hmem
  | applied es stalled consumes hparked stalls =>
    refine ⟨rfl, fun e' hmem => hr.parked e' (Backlog.mem_prune.mp hmem).1, fun s hmem => ?_, ?_⟩
    · exact hr.parked _ (stalls.place (List.mem_map_of_mem hmem)).1
    · refine h.consumes hlog hr.handles_eq consumes ?_
      rw [List.forall_mem_cons]
      exact ⟨he, fun e' hmem => hr.parked e' (hparked e' hmem).2⟩

end Obeys

end Runner

namespace Registry
variable {r : Runner ω} {runners : List (Runner ω)} {o : Outbox} {bus : Bus ProjectionUpdated}

variable (cursor handles log) in
/-- Since its bus was a certain one, a registry has published the signals up to its cursors, in
a certain order. -/
structure Published (bus : Bus ProjectionUpdated) (sent : List ProjectionUpdated) (o : Outbox)
    (w : ω) : Prop where
  queue : o.Queues (· ∈ log)
  updates : o.updates = sent.foldl Bus.publish bus
  signalled : Signalled cursor handles log sent w

namespace Published
variable [Journal ω] (hframe : Frame fun a b : ω => ∀ name, cursor name b = cursor name a)
include hframe

theorem settle (h : Published cursor handles log bus sent o w) {r' : Runner ω} {progress : Progress}
    (hadvances : r.Advances cursor handles log sent progress r' w') :
    let after := o.settle r.name progress w'
    Published cursor handles log bus (sent ++ after.1.1) after.1.2 after.2 := by
  obtain ⟨hreturned, hupdates⟩ := o.updates_settle w' r.name progress
  obtain ⟨hqueue, hcursor⟩ := Outbox.settle_spec hframe h.queue r.name hadvances.stalled w'
  refine ⟨hqueue, ?_, hreturned ▸ hadvances.signalled.frame hcursor⟩
  rw [hupdates, h.updates, hreturned, List.foldl_append]

theorem feed (hlog : Gapless log) (h : Published cursor handles log bus sent o w)
    (hr : r.Obeys cursor handles log) (he : e ∈ log) :
    let after := Registry.feed r e o w
    after.1.2.1.Obeys cursor handles log ∧
      Published cursor handles log bus (sent ++ after.1.1) after.1.2.2 after.2 := by
  have happly := hr.apply hlog h.signalled he
  have hobeys := happly.obeys hr
  have hname := happly.name_eq
  rw [Registry.feed, bind_apply]
  generalize r.apply e w = step at happly hobeys hname ⊢
  obtain ⟨⟨error | (progress | _ | _), r'⟩, w'⟩ := step
  · obtain ⟨hqueue, hcursor⟩ := Outbox.recordFailure_spec hframe h.queue he r'.name error w'
    exact ⟨hobeys, hqueue, (List.append_nil sent).symm ▸ h.updates, happly.signalled.frame hcursor⟩
  · refine ⟨hobeys, ?_⟩
    have hsettle := h.settle hframe happly
    rw [← hname] at hsettle
    exact hsettle
  · exact ⟨hobeys, h.queue, (List.append_nil sent).symm ▸ h.updates, happly.signalled⟩
  · exact ⟨hobeys, h.queue, (List.append_nil sent).symm ▸ h.updates, happly.signalled⟩

theorem feedAll (hlog : Gapless log) (h : Published cursor handles log bus sent o w)
    (hr : ∀ r ∈ runners, r.Obeys cursor handles log) (he : e ∈ log) :
    let after := Registry.feedAll e runners o w
    (∀ r ∈ after.1.2.1, r.Obeys cursor handles log) ∧
      Published cursor handles log bus (sent ++ after.1.1) after.1.2.2 after.2 := by
  induction runners generalizing sent o w with
  | nil => exact ⟨hr, (List.append_nil sent).symm ▸ h⟩
  | cons r runners ih =>
    rw [List.forall_mem_cons] at hr
    obtain ⟨hobeys, hfirst⟩ := h.feed hframe hlog hr.1 he
    obtain ⟨hrest, hlast⟩ := ih hfirst hr.2
    rw [List.append_assoc] at hlast
    exact ⟨List.forall_mem_cons.mpr ⟨hobeys, hrest⟩, hlast⟩

theorem drainRunners (hlog : Gapless log) (h : Published cursor handles log bus sent o w)
    (hr : ∀ r ∈ runners, r.Obeys cursor handles log) :
    let after := Registry.drainRunners runners o w
    (∀ r ∈ after.1.1, r.Obeys cursor handles log) ∧
      ∃ sent, Published cursor handles log bus sent after.1.2 after.2 := by
  induction runners generalizing sent o w with
  | nil => exact ⟨hr, sent, h⟩
  | cons r runners ih =>
    rw [List.forall_mem_cons] at hr
    have hdrain := hr.1.drainAll hlog h.signalled r.backlog.aggregates
    have hsettle := h.settle hframe hdrain
    rw [← hdrain.name_eq] at hsettle
    obtain ⟨hrest, hlast⟩ := ih hsettle hr.2
    exact ⟨List.forall_mem_cons.mpr ⟨hdrain.obeys hr.1, hrest⟩, hlast⟩

theorem retryOne (hlog : Gapless log) (h : Published cursor handles log bus sent o w)
    (hr : ∀ r ∈ runners, r.Obeys cursor handles log) {failure : FailedUpdate}
    (he : failure.envelope ∈ log) :
    let after := Registry.retryOne failure runners o w
    (∀ r ∈ after.1.2.1, r.Obeys cursor handles log) ∧
      ∃ sent, Published cursor handles log bus sent after.1.2.2 after.2 := by
  induction runners with
  | nil => exact ⟨hr, sent, h⟩
  | cons r runners ih =>
    rw [List.forall_mem_cons] at hr
    rw [Registry.retryOne]
    by_cases hname : r.name = failure.projection
    · have happly := hr.1.apply hlog h.signalled he
      have hobeys := happly.obeys hr.1
      rw [if_pos hname, bind_apply, ← hname]
      generalize r.apply failure.envelope w = step at happly hobeys ⊢
      obtain ⟨⟨error | (progress | _ | _), r'⟩, w'⟩ := step
      · obtain ⟨hqueue, hcursor⟩ := Outbox.requeue_spec hframe h.queue he error w'
        have hupdates : (o.requeue failure error w').1.updates =
            (sent ++ signalsOf r.name []).foldl Bus.publish bus := by
          rw [Outbox.updates_requeue, h.updates]
          exact congrArg (List.foldl Bus.publish bus) (List.append_nil sent).symm
        exact ⟨List.forall_mem_cons.mpr ⟨hobeys, hr.2⟩, _, hqueue, hupdates,
          happly.signalled.frame hcursor⟩
      · exact ⟨List.forall_mem_cons.mpr ⟨hobeys, hr.2⟩, _, h.settle hframe happly⟩
      · exact ⟨List.forall_mem_cons.mpr ⟨hobeys, hr.2⟩, _, h.queue,
          (List.append_nil sent).symm ▸ h.updates, happly.signalled⟩
      · exact ⟨List.forall_mem_cons.mpr ⟨hobeys, hr.2⟩, _, h.queue,
          (List.append_nil sent).symm ▸ h.updates, happly.signalled⟩
    · obtain ⟨hrest, hlast⟩ := ih hr.2
      rw [if_neg hname]
      exact ⟨List.forall_mem_cons.mpr ⟨hr.1, hrest⟩, hlast⟩

theorem retryEach (hlog : Gapless log) (h : Published cursor handles log bus sent o w)
    (hr : ∀ r ∈ runners, r.Obeys cursor handles log) {failures : List FailedUpdate}
    (hfailures : ∀ f ∈ failures, f.envelope ∈ log) :
    let after := Registry.retryEach failures runners o w
    (∀ r ∈ after.1.2.1, r.Obeys cursor handles log) ∧
      ∃ sent, Published cursor handles log bus sent after.1.2.2 after.2 := by
  induction failures generalizing runners sent o w with
  | nil => exact ⟨hr, sent, h⟩
  | cons failure failures ih =>
    rw [List.forall_mem_cons] at hfailures
    obtain ⟨hobeys, sent', hfirst⟩ := h.retryOne hframe hlog hr hfailures.1
    exact ih hfirst hobeys hfailures.2

end Published

variable (cursor handles log) in
/-- A registry of such runners. -/
structure Signals [Journal ω] (bus : Bus ProjectionUpdated) (sent : List ProjectionUpdated) (reg : Registry ω)
    (w : ω) : Prop where
  obeys : ∀ r ∈ reg.runners, r.Obeys cursor handles log
  published : Published cursor handles log bus sent reg.outbox w

namespace Signals
variable [Journal ω] {reg : Registry ω}
variable (hframe : Frame fun a b : ω => ∀ name, cursor name b = cursor name a)
include hframe

theorem note (h : Signals cursor handles log bus sent reg w) (record : JournalRecord) :
    Signals cursor handles log bus sent reg (Journal.note record w) where
  obeys := h.obeys
  published := ⟨h.published.queue, h.published.updates,
    h.published.signalled.frame (hframe.note record w)⟩

theorem dispatch (hlog : Gapless log) (h : Signals cursor handles log bus sent reg w) (he : e ∈ log) :
    Signals cursor handles log bus (sent ++ (reg.dispatch e w).1.1) (reg.dispatch e w).1.2
      (reg.dispatch e w).2 := by
  obtain ⟨hobeys, hpublished⟩ := h.published.feedAll hframe hlog h.obeys he
  exact ⟨hobeys, hpublished⟩

theorem dispatchAll (hlog : Gapless log) (h : Signals cursor handles log bus sent reg w)
    {es : List (Envelope Json)} (hes : ∀ e ∈ es, e ∈ log) :
    ∃ sent, Signals cursor handles log bus sent (reg.dispatchAll es w).1 (reg.dispatchAll es w).2 := by
  induction es generalizing reg sent w with
  | nil => exact ⟨sent, h⟩
  | cons e es ih =>
    rw [List.forall_mem_cons] at hes
    exact ih (h.dispatch hframe hlog hes.1) hes.2

theorem drainParked (hlog : Gapless log) (h : Signals cursor handles log bus sent reg w) :
    ∃ sent, Signals cursor handles log bus sent (reg.drainParked w).1 (reg.drainParked w).2 := by
  obtain ⟨hobeys, sent', hpublished⟩ := h.published.drainRunners hframe hlog h.obeys
  exact ⟨sent', hobeys, hpublished⟩

theorem retryFailed (hlog : Gapless log) (h : Signals cursor handles log bus sent reg w) :
    ∃ sent, Signals cursor handles log bus sent (reg.retryFailed w).1.2 (reg.retryFailed w).2 := by
  have hemptied : Published cursor handles log bus sent { reg.outbox with failed := [] } w :=
    ⟨fun _ hmem => absurd hmem List.not_mem_nil, h.published.updates, h.published.signalled⟩
  have hqueue : ∀ f ∈ reg.failures, f.envelope ∈ log := h.published.queue
  obtain ⟨hobeys, sent', heach⟩ := hemptied.retryEach hframe hlog h.obeys hqueue
  have hretried : Signals cursor handles log bus sent' ⟨_, _⟩ _ := ⟨hobeys, heach⟩
  obtain ⟨sent'', hdrained⟩ := hretried.drainParked hframe hlog
  refine ⟨sent'', ?_⟩
  simp only [Registry.retryFailed, bind_apply]
  split
  · exact hdrained.note hframe _
  · exact hdrained

theorem catchUp (hlog : Gapless log) (h : Signals cursor handles log bus sent reg w)
    {events : List StoredEvent} (hevents : ∀ e ∈ events.map StoredEvent.envelope, e ∈ log) :
    ∃ sent, let after := reg.catchUp (.replica (.ok events)) w
      Signals cursor handles log bus sent after.1.2 after.2 := by
  obtain ⟨sent', hfed⟩ := h.dispatchAll hframe hlog hevents
  obtain ⟨sent'', hdrained⟩ := hfed.drainParked hframe hlog
  exact ⟨sent'', hdrained.note hframe _⟩

end Signals

end Registry

end

section
variable {ω : Type} {cursor : String → ω → AggregateId → Nat}
variable {handles : String → String → Bool} {log : EventLog} {sent : List ProjectionUpdated}
variable {bus : Bus ProjectionUpdated} {reg : Registry ω} {w : ω}

theorem Registry.Published.takeUpdates {o : Outbox} {s : Subscription ProjectionUpdated} {number : Nat}
    (h : Published cursor handles log.envelopes bus sent o w) (hfound : bus.find? number = some s)
    (hqueue : s.queue = []) (runners : List (Runner ω)) :
    ((⟨runners, o⟩ : Registry ω).takeUpdates number).1 = sent := by
  change (o.updates.drain number).1.getD [] = sent
  rw [h.updates, Bus.drain_foldl_publish sent hfound, hqueue]
  rfl

variable [Journal ω]

/-- No call but a rebuild publishes a signal of anything but what it applies. -/
theorem Registry.Signals.answer (hframe : Frame fun a b : ω => ∀ name, cursor name b = cursor name a)
    (hlog : Gapless log.envelopes) (h : Signals cursor handles log.envelopes bus sent reg w)
    {call : RegistryCall} (hcall : ∀ e, call = .dispatch e → e ∈ log.envelopes)
    (hrebuild : ∀ read, call ≠ .rebuild read) :
    ∃ sent, Signals cursor handles log.envelopes bus sent (reg.answer log call w).1
      (reg.answer log call w).2 := by
  cases call with
  | dispatch e => exact ⟨_, h.dispatch hframe hlog (hcall e rfl)⟩
  | retryFailed => exact h.retryFailed hframe hlog
  | catchUp read =>
    cases read with
    | error error => exact ⟨sent, h⟩
    | ok count =>
      exact h.catchUp hframe hlog
        (EventLog.envelopes_of_commits fun _ hmem => List.mem_of_mem_take hmem)
  | rebuild read => exact absurd rfl (hrebuild read)

theorem Registry.Signals.answerAll (hframe : Frame fun a b : ω => ∀ name, cursor name b = cursor name a)
    (hlog : Gapless log.envelopes) (h : Signals cursor handles log.envelopes bus sent reg w)
    {calls : List RegistryCall} (hcalls : ∀ e, .dispatch e ∈ calls → e ∈ log.envelopes)
    (hrebuild : ∀ read, .rebuild read ∉ calls) :
    ∃ sent, Signals cursor handles log.envelopes bus sent (reg.answerAll log calls w).1
      (reg.answerAll log calls w).2 := by
  induction calls generalizing reg sent w with
  | nil => exact ⟨sent, h⟩
  | cons call calls ih =>
    obtain ⟨sent', hfirst⟩ := h.answer hframe hlog (fun e he => hcalls e (he ▸ List.mem_cons_self))
      fun read hread => hrebuild read (hread ▸ List.mem_cons_self)
    exact ih hfirst (fun e he => hcalls e (List.mem_cons_of_mem _ he))
      fun read hread => hrebuild read (List.mem_cons_of_mem _ hread)

end

/-- What a projection handles, by its name; nothing if there is no such projection. -/
def handlesOf {σ : Type} (projections : List (Projection σ)) (name : String) : String → Bool :=
  ((projections.find? fun p => p.name = name).map Projection.handles).getD fun _ => false

theorem handlesOf_name {σ : Type} {projections : List (Projection σ)}
    (hhandles : ∀ p ∈ projections, ∀ q ∈ projections, p.name = q.name → p.handles = q.handles)
    {p : Projection σ} (hp : p ∈ projections) : handlesOf projections p.name = p.handles := by
  rw [handlesOf]
  cases hfound : projections.find? fun q => q.name = p.name with
  | none => exact absurd (decide_eq_true rfl) (List.find?_eq_none.mp hfound p hp)
  | some q =>
    have hname : q.name = p.name := by simpa using List.find?_some hfound
    exact hhandles q (List.mem_of_find?_eq_some hfound) p hp hname

/-- Who listens has heard from a projection, of each stream, exactly the handled events up to
the cursor, each once and in ascending order. -/
structure Heard {σ : Type} (log : EventLog) (p : Projection σ) (cursor : AggregateId → Nat)
    (heard : List ProjectionUpdated) : Prop where
  bound : ∀ id, cursor id ≤ (streamOf log.envelopes id).length
  exact : ∀ id, heard.filter (ProjectionUpdated.isOf p.name id) =
    ((streamOf log.envelopes id).filter fun e => e.sequenceNumber ≤ cursor id ∧
      p.handles e.eventType).map fun e => ⟨p.name, id, e.sequenceNumber, e.eventType⟩
  ascending : ∀ id, ((heard.filter (ProjectionUpdated.isOf p.name id)).map
    ProjectionUpdated.sequenceNumber).Pairwise (· < ·)

section
variable {ω σ : Type} {cursor : String → ω → AggregateId → Nat}
variable {handles : String → String → Bool} {log : EventLog} {sent : List ProjectionUpdated} {w : ω}

theorem Signalled.heard (hlog : Gapless log.envelopes)
    (h : Signalled cursor handles log.envelopes sent w) {p : Projection σ}
    (hhandles : handles p.name = p.handles) : Heard log p (cursor p.name w) sent := by
  have hexact (id : AggregateId) : sent.filter (ProjectionUpdated.isOf p.name id) =
      ((streamOf log.envelopes id).filter fun e => e.sequenceNumber ≤ cursor p.name w id ∧
        p.handles e.eventType).map fun e => ⟨p.name, id, e.sequenceNumber, e.eventType⟩ := by
    rw [h.exact, signalsUpTo, hhandles, hlog.take_streamOf, List.filter_filter]
    congr 2
    funext e
    simp [Bool.and_comm]
  refine ⟨h.bound p.name, hexact, fun id => ?_⟩
  rw [hexact, List.map_map]
  have hstream : ((streamOf log.envelopes id).map Envelope.sequenceNumber).Pairwise (· < ·) := by
    rw [hlog id]
    exact List.pairwise_lt_range'
  exact hstream.sublist (List.filter_sublist.map _)

theorem Signalled.sender {projections : List (Projection σ)}
    (h : Signalled cursor (handlesOf projections) log.envelopes sent w) {update : ProjectionUpdated}
    (hmem : update ∈ sent) : ∃ p ∈ projections, p.name = update.projection := by
  have hof : update ∈ sent.filter (ProjectionUpdated.isOf update.projection update.aggregateId) :=
    List.mem_filter.mpr ⟨hmem, decide_eq_true ⟨rfl, rfl⟩⟩
  rw [h.exact] at hof
  obtain ⟨e, he, _⟩ := List.mem_map.mp hof
  have hhandled := (List.mem_filter.mp he).2
  rw [handlesOf] at hhandled
  cases hfound : projections.find? fun p => p.name = update.projection with
  | none =>
    rw [hfound] at hhandled
    contradiction
  | some p =>
    exact ⟨p, List.mem_of_find?_eq_some hfound, by simpa using List.find?_some hfound⟩

end

theorem Workshop.signals_start {σ : Type} (home : String → Nat) {projections : List (Projection σ)}
    (hhandles : ∀ p ∈ projections, ∀ q ∈ projections, p.name = q.name → p.handles = q.handles)
    (log : List (Envelope Json)) (bus : Bus ProjectionUpdated) (model : σ) :
    Registry.Signals (cursor home) (handlesOf projections) log bus []
      ⟨projections.map (runner home), ⟨[], bus⟩⟩ (.start model) where
  obeys r hmem := by
    obtain ⟨p, hp, rfl⟩ := List.mem_map.mp hmem
    exact ⟨lawful home p, (handlesOf_name hhandles hp).symm, fun _ hmem => absurd hmem List.not_mem_nil⟩
  published := ⟨fun _ hmem => absurd hmem List.not_mem_nil, rfl, fun _ _ => Nat.zero_le _,
    fun _ _ => rfl⟩

/-- Whatever projections do with the events of a gapless log, and whenever they fail, who has
subscribed before hears from each of them exactly the handled events up to its cursors, each
once and in ascending order, and from no one else; and each dispatch returns what it
publishes, in order. -/
theorem answerAll_signals {σ : Type} (home : String → Nat) (projections : List (Projection σ))
    (hhandles : ∀ p ∈ projections, ∀ q ∈ projections, p.name = q.name → p.handles = q.handles)
    (log : EventLog) (hlog : Gapless log.envelopes) (bus : Bus ProjectionUpdated)
    (hbus : ∀ s ∈ bus.subscriptions, s.number < bus.issued) (calls : List RegistryCall)
    (hcalls : ∀ e, .dispatch e ∈ calls → e ∈ log.envelopes)
    (hrebuild : ∀ read, .rebuild read ∉ calls) (model : σ) :
    let attached := Registry.subscribeUpdates ⟨projections.map (Workshop.runner home), ⟨[], bus⟩⟩
    let after := attached.2.answerAll log calls (.start model)
    let heard := (after.1.takeUpdates attached.1).1
    (∀ p ∈ projections, Heard log p (Workshop.cursor home p.name after.2) heard) ∧
      (∀ update ∈ heard, ∃ p ∈ projections, p.name = update.projection) ∧
      ∀ e ∈ log.envelopes, let next := after.1.dispatch e after.2
        (next.1.2.takeUpdates attached.1).1 = heard ++ next.1.1 := by
  intro attached after heard
  have hframe := Workshop.frame_cursor (σ := σ) home
  have hstart := Workshop.signals_start home hhandles log.envelopes bus.subscribe.2 model
  have hfound := Bus.find?_subscribe hbus
  obtain ⟨sent, hafter⟩ := hstart.answerAll hframe hlog hcalls hrebuild
  have hheard : heard = sent := hafter.published.takeUpdates hfound rfl _
  rw [hheard]
  refine ⟨fun p hp => ?_, fun update => hafter.published.signalled.sender, fun e he => ?_⟩
  · exact hafter.published.signalled.heard hlog (handlesOf_name hhandles hp)
  · exact (hafter.dispatch hframe hlog he).published.takeUpdates hfound rfl _

/-- The second event comes first, the first one is refused once, and one of two projections
handles only creations. -/
theorem answerAll_signals_mintedLog :
    let projections := [flakyProjection "first",
      { flakyProjection "second" with handles := (· == "profiles.profile.created") }]
    let bus : Bus ProjectionUpdated := .new
    let calls := mintedLog.envelopes.reverse.map .dispatch ++ [.retryFailed, .catchUp (.ok 1)]
    (∀ p ∈ projections, ∀ q ∈ projections, p.name = q.name → p.handles = q.handles) ∧
      Gapless mintedLog.envelopes ∧
      (∀ s ∈ bus.subscriptions, s.number < bus.issued) ∧
      (∀ e, .dispatch e ∈ calls → e ∈ mintedLog.envelopes) ∧ (∀ read, .rebuild read ∉ calls) ∧
      let attached := Registry.subscribeUpdates ⟨projections.map (Workshop.runner fun _ => 0), ⟨[], bus⟩⟩
      let after := attached.2.answerAll mintedLog calls (.start 0)
      let heard := (after.1.takeUpdates attached.1).1
      (∀ p ∈ projections, Heard mintedLog p (Workshop.cursor (fun _ => 0) p.name after.2) heard) ∧
        (∀ update ∈ heard, ∃ p ∈ projections, p.name = update.projection) ∧
        ∀ e ∈ mintedLog.envelopes, let next := after.1.dispatch e after.2
          (next.1.2.takeUpdates attached.1).1 = heard ++ next.1.1 := by
  intro projections bus calls
  have hhandles : ∀ p ∈ projections, ∀ q ∈ projections, p.name = q.name → p.handles = q.handles := by
    have hne : ¬"first" = "second" := by decide
    simp [projections, flakyProjection, hne, Ne.symm hne]
  have hlog := mintedLog_written.lawful.consistent.gapless
  have hbus : ∀ s ∈ bus.subscriptions, s.number < bus.issued :=
    fun _ hmem => absurd hmem List.not_mem_nil
  have hcalls : ∀ e, .dispatch e ∈ calls → e ∈ mintedLog.envelopes := by
    intro e he
    simpa [calls] using he
  have hrebuild : ∀ read, .rebuild read ∉ calls := by
    intro read
    simp [calls]
  exact ⟨hhandles, hlog, hbus, hcalls, hrebuild, answerAll_signals (fun _ => 0) projections hhandles
    mintedLog hlog bus hbus calls hcalls hrebuild 0⟩

end IdentityLedger
