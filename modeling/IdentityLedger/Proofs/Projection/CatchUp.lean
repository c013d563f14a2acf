import IdentityLedger.Proofs.Projection.Registry

/-!
# Catching up

A read-only copy of a log, or of a beginning of it, can be fed to a registry that
follows the log. Once the read model is reliable, the whole log takes every cursor to
the end of its stream, and a registry that is there has nothing left to do.
-/
namespace IdentityLedger

/-- A read-only copy of the events of a log, which may also fail to answer. -/
def EventStore.replica {ω : Type} (answer : Except EventStoreError (List StoredEvent)) :
    EventStore ω where
  append _ _ _ := pure (.error (.storage "read-only"))
  loadStream id := pure (answer.map fun events => events.filter fun e => e.aggregateId = id)
  loadAll := pure answer

/-- Each of the envelopes is the next one of its stream, from one place of all streams to
another. -/
inductive Leads : (AggregateId → Nat) → List (Envelope Json) → (AggregateId → Nat) → Prop
  | nil (place : AggregateId → Nat) : Leads place [] place
  | cons {place last : AggregateId → Nat} {e : Envelope Json} {es : List (Envelope Json)}
      (next : e.sequenceNumber = place e.aggregateId + 1)
      (rest : Leads (Function.update place e.aggregateId e.sequenceNumber) es last) :
      Leads place (e :: es) last

theorem EventLog.Consistent.leads {log : EventLog} (h : log.Consistent)
    {first rest : List StoredEvent} (hcommits : log.commits = first ++ rest) :
    Leads (lengths first) (rest.map StoredEvent.envelope) (lengths log.commits) := by
  induction rest generalizing first with
  | nil =>
    rw [hcommits, List.append_nil]
    exact .nil _
  | cons stored rest ih =>
    have hnumber := h.sequenceNumber_eq hcommits
    have hrest := ih (hcommits.trans (List.append_cons _ _ _))
    rw [lengths_concat, ← hnumber] at hrest
    exact .cons hnumber hrest

namespace RowModel
variable {ω : Type} [Journal ω] {m : RowModel ω} {log : EventLog} {r : Runner ω} {w : ω}

/-- Feeding a copy is dispatching what it holds: nothing is left to drain after it. -/
theorem catchUp_replica {reg : Registry ω} {events : List StoredEvent}
    (h : m.Tracked log (reg.dispatchAll (events.map StoredEvent.envelope) w).1
      (reg.dispatchAll (events.map StoredEvent.envelope) w).2) :
    ∃ w', reg.catchUp (.replica (.ok events)) w = ((.ok events.length,
        (reg.dispatchAll (events.map StoredEvent.envelope) w).1), w') ∧
      m.observation.Still (reg.dispatchAll (events.map StoredEvent.envelope) w).2 w' := by
  refine ⟨_, ?_, m.tracks.still.report (m.tracks.still.refl _) .debug
    "projection catch-up complete" [("events", .number events.length)]⟩
  rw [Registry.catchUp, bind_apply]
  simp only [EventStore.replica, pure_apply, bind_apply, h.drainParked]

theorem Tracked.catchUp (hlog : log.Lawful) {reg : Registry ω} (h : m.Tracked log reg w)
    {answer : Except EventStoreError (List StoredEvent)}
    (hanswer : ∀ events, answer = .ok events → ∀ stored ∈ events, stored ∈ log.commits) :
    m.Tracked log (reg.catchUp (.replica answer) w).1.2 (reg.catchUp (.replica answer) w).2 := by
  refine tracked_iff.mpr ((tracked_iff.mp h).catchUp (invariant hlog) _ rfl ?_)
  exact fun events hevents => EventLog.envelopes_of_commits (hanswer events hevents)

theorem Tracked.rebuild (hlog : log.Lawful) {reg : Registry ω} (h : m.Tracked log reg w)
    {answer : Except EventStoreError (List StoredEvent)}
    (hanswer : ∀ events, answer = .ok events → ∀ stored ∈ events, stored ∈ log.commits) :
    m.Tracked log (reg.rebuild (.replica answer) w).1.2 (reg.rebuild (.replica answer) w).2 := by
  cases answer with
  | error error => exact h
  | ok events =>
    have hmem := EventLog.envelopes_of_commits (hanswer events rfl)
    obtain ⟨⟨r, hr, hfollows⟩, hqueue⟩ := h
    obtain ⟨runners, o⟩ := reg
    subst hr
    have hrebuild := hfollows.rebuild hlog hmem
    rw [Registry.rebuild, bind_apply]
    simp only [EventStore.replica, pure_apply, bind_apply, Registry.rebuildRunners]
    generalize r.rebuild (events.map StoredEvent.envelope) w = step at hrebuild
    obtain ⟨⟨_ | applied, r'⟩, w'⟩ := step
    · exact ⟨⟨r', rfl, hrebuild⟩, hqueue⟩
    · have hreport := m.tracks.still.report (m.tracks.still.refl w') .info "projection rebuilt"
        [("projection", .text r'.name), ("applied", .number applied)]
      refine ⟨⟨r', rfl, hrebuild.still hreport⟩, fun f hf => ?_⟩
      exact hqueue f (List.mem_filter.mp hf).1

theorem not_refuses (hlog : log.Lawful) {a b : ω} (hsteady : m.steady a)
    (hshows : log.Shows (m.cursor b) (m.table b)) {e : Envelope Json} (hmem : e ∈ log.envelopes)
    (hnext : e.sequenceNumber = m.cursor b e.aggregateId + 1) :
    ¬m.observation.Refuses (profileProjection m.rows) a e b := by
  rintro ⟨v, error, hlater, _, herror, hstill⟩
  obtain ⟨stored, hstored, rfl⟩ := List.mem_map.mp hmem
  have hcursor : m.cursor b = m.cursor v := hstill.cursor
  have htable : m.table b = m.table v := hstill.model
  rw [hcursor] at hnext
  rw [hcursor, htable] at hshows
  exact m.reliable.receive m.serves hlog (m.reliable.later hsteady hlater) hshows hstored hnext
    error herror

/-- What a reliable read model makes of an envelope: nothing fails, and the cursor passes the
envelope unless it is too far ahead. -/
structure Passes (m : RowModel ω) (a : ω) (e : Envelope Json) (b : ω) : Prop where
  later : m.later a b
  cursor_le : ∀ id, m.cursor a id ≤ m.cursor b id
  passed : e.sequenceNumber ≤ m.cursor a e.aggregateId + 1 →
    e.sequenceNumber ≤ m.cursor b e.aggregateId

theorem Passes.of_still {a b : ω} {e : Envelope Json} (hstill : m.observation.Still a b)
    (hpassed : e.sequenceNumber ≤ m.cursor a e.aggregateId + 1 →
      e.sequenceNumber ≤ m.cursor a e.aggregateId) : m.Passes a e b := by
  have hcursor : m.cursor b = m.cursor a := hstill.cursor
  constructor
  · exact hstill.later
  · intro id
    exact Nat.le_of_eq (congrFun hcursor id).symm
  · rw [hcursor]
    exact hpassed

theorem Passes.of_consumes {a b : ω} {e : Envelope Json} {es : List (Envelope Json)}
    (h : m.observation.Consumes (profileProjection m.rows) a (e :: es) b) : m.Passes a e b where
  later := h.later m.lawful
  cursor_le := h.cursor_le
  passed _ := h.head.2

/-- Submitting an envelope without a failure: it is behind, ahead, or applied with every
parked envelope that was waiting for it. -/
inductive Smooth (m : RowModel ω) (r : Runner ω) (e : Envelope Json) (w : ω) :
    (Except ProjectionError ApplyOutcome × Runner ω) × ω → Prop
  | duplicate {w' : ω} (hbehind : e.sequenceNumber ≤ m.cursor w e.aggregateId)
      (still : m.observation.Still w w') : Smooth m r e w ((.ok .duplicate, r), w')
  | parked {w' : ω} (hahead : m.cursor w e.aggregateId + 1 < e.sequenceNumber)
      (still : m.observation.Still w w') :
      Smooth m r e w ((.ok .parked, r.withBacklog (r.backlog.park e)), w')
  | applied {w' : ω} (es : List (Envelope Json))
      (consumes : m.observation.Consumes (profileProjection m.rows) w (e :: es) w')
      (absent : r.backlog.find? e.aggregateId (m.cursor w' e.aggregateId + 1) = none) :
      Smooth m r e w ((.ok (.applied ⟨(e :: es).map (profileProjection m.rows).report, []⟩),
        r.withBacklog (r.backlog.prune e.aggregateId (m.cursor w' e.aggregateId + 1))), w')

theorem Follows.smooth (hlog : log.Lawful) (h : m.Follows log r w) (hsteady : m.steady w)
    {e : Envelope Json} (hmem : e ∈ log.envelopes) : m.Smooth r e w (r.apply e w) := by
  have hcases := Runner.apply_cases h.lawful e w
  generalize r.apply e w = step at hcases
  cases hcases with
  | unnumbered hzero =>
    obtain ⟨stored, hstored, rfl⟩ := List.mem_map.mp hmem
    exact absurd hzero (Nat.ne_of_gt (hlog.consistent.getElem?_stream hstored).1)
  | duplicate hbehind still => exact .duplicate hbehind still
  | parked hahead still => exact .parked hahead still
  | @refused error w' hnext refuses still =>
    have hcursor : m.cursor w' = m.cursor w := still.cursor
    rw [h.projection_eq] at refuses
    refine absurd refuses (not_refuses hlog hsteady (shows_still still h.shows) hmem ?_)
    rw [hcursor]
    exact hnext
  | @applied w' es stalled consumes hparked stalls =>
    have hes : ∀ e' ∈ e :: es, e' ∈ log.envelopes := by
      rw [List.forall_mem_cons]
      exact ⟨hmem, fun e' he' => h.parked e' (hparked e' he').2⟩
    rw [h.projection_eq] at consumes stalls ⊢
    have hshows := shows_consumes hlog hes consumes h.shows
    cases stalls with
    | none absent => exact .applied es consumes absent
    | @one e' error found refuses =>
      -- what would be handed back is next in its stream, so it is not refused
      obtain ⟨hmem', hid, hnumber⟩ := Backlog.mem_of_find? found
      refine absurd refuses (not_refuses hlog hsteady hshows (h.parked e' hmem') ?_)
      rw [hid]
      exact hnumber

theorem Follows.apply_steady (hlog : log.Lawful) (h : m.Follows log r w) (hsteady : m.steady w)
    {e : Envelope Json} (hmem : e ∈ log.envelopes) :
    ∃ outcome r' w', r.apply e w = ((.ok outcome, r'), w') ∧ m.Passes w e w' ∧
      ∀ progress, outcome = .applied progress → progress.stalled = [] := by
  have hsmooth := h.smooth hlog hsteady hmem
  generalize r.apply e w = step at hsmooth
  cases hsmooth with
  | @duplicate w' hbehind still =>
    exact ⟨.duplicate, r, w', rfl, .of_still still fun _ => hbehind, nofun⟩
  | @parked w' hahead still =>
    refine ⟨.parked, _, w', rfl, .of_still still fun hready => ?_, nofun⟩
    exact absurd hready (Nat.not_le_of_lt hahead)
  | @applied w' es consumes =>
    refine ⟨_, _, w', rfl, .of_consumes consumes, ?_⟩
    rintro progress ⟨⟩
    rfl

theorem Tracked.dispatch_steady (hlog : log.Lawful) {reg : Registry ω} (h : m.Tracked log reg w)
    (hsteady : m.steady w) {e : Envelope Json} (hmem : e ∈ log.envelopes) :
    (reg.dispatch e w).1.2.outbox.failed = reg.outbox.failed ∧
      m.Passes w e (reg.dispatch e w).2 := by
  obtain ⟨⟨r, hr, hfollows⟩, _⟩ := h
  obtain ⟨runners, o⟩ := reg
  subst hr
  obtain ⟨outcome, r', w', happly, hpasses, hstalled⟩ := hfollows.apply_steady hlog hsteady hmem
  simp only [Registry.dispatch, Registry.feedAll, Registry.feed, bind_apply, happly]
  cases outcome with
  | applied progress =>
    obtain ⟨hfailed, hworld⟩ := Outbox.failed_settle (o := o) (hstalled progress rfl) r'.name w'
    simp only [bind_apply, pure_apply, hworld, hfailed]
    exact ⟨trivial, hpasses⟩
  | duplicate => exact ⟨rfl, hpasses⟩
  | parked => exact ⟨rfl, hpasses⟩

/-- Envelopes that lead on from places the cursors have reached take the cursors with them. -/
theorem Tracked.dispatchAll_steady (hlog : log.Lawful) {reg : Registry ω}
    (h : m.Tracked log reg w) (hsteady : m.steady w) {es : List (Envelope Json)}
    (hmem : ∀ e ∈ es, e ∈ log.envelopes) {place last : AggregateId → Nat} (hleads : Leads place es last)
    (hplace : ∀ id, place id ≤ m.cursor w id) :
    (reg.dispatchAll es w).1.outbox.failed = reg.outbox.failed ∧
      m.later w (reg.dispatchAll es w).2 ∧ ∀ id, last id ≤ m.cursor (reg.dispatchAll es w).2 id := by
  induction hleads generalizing reg w with
  | nil place => exact ⟨rfl, m.tracks.frame.refl w, hplace⟩
  | @cons place last e es next _ ih =>
    rw [List.forall_mem_cons] at hmem
    obtain ⟨hfailed, hpasses⟩ := h.dispatch_steady hlog hsteady hmem.1
    have hreached : ∀ id, Function.update place e.aggregateId e.sequenceNumber id ≤
        m.cursor (reg.dispatch e w).2 id := by
      intro id
      by_cases hid : id = e.aggregateId
      · subst hid
        rw [Function.update_self]
        exact hpasses.passed (next ▸ Nat.succ_le_succ (hplace _))
      · rw [Function.update_of_ne hid]
        exact Nat.le_trans (hplace id) (hpasses.cursor_le id)
    obtain ⟨hfailed', hlater, hlast⟩ := ih (h.dispatch hlog hmem.1)
      (m.reliable.later hsteady hpasses.later) hmem.2 hreached
    exact ⟨hfailed'.trans hfailed, m.tracks.frame.trans hpasses.later hlater, hlast⟩

/-- Every cursor is at the end of its stream. -/
def AtEnd (m : RowModel ω) (log : EventLog) (w : ω) : Prop :=
  ∀ id, m.cursor w id = (log.stream id).length

theorem AtEnd.still {a b : ω} (h : m.AtEnd log a) (hstill : m.observation.Still a b) :
    m.AtEnd log b := fun id => (congrFun hstill.cursor id).trans (h id)

theorem Tracked.dispatchAll_rest (hlog : log.Lawful) {reg : Registry ω} (h : m.Tracked log reg w)
    (hsteady : m.steady w) {first rest : List StoredEvent} (hcommits : log.commits = first ++ rest)
    (hfirst : ∀ id, EventLog.lengths first id ≤ m.cursor w id) :
    let after := reg.dispatchAll (rest.map StoredEvent.envelope) w
    m.Tracked log after.1 after.2 ∧ m.AtEnd log after.2 ∧ m.later w after.2 ∧
      after.1.outbox.failed = reg.outbox.failed := by
  have hrest : ∀ stored ∈ rest, stored ∈ log.commits := by
    rw [hcommits]
    exact fun _ hstored => List.mem_append_right _ hstored
  have hmem := EventLog.envelopes_of_commits hrest
  have hall := h.dispatchAll hlog hmem
  obtain ⟨hfailed, hlater, hreached⟩ := h.dispatchAll_steady hlog hsteady hmem
    (hlog.consistent.leads hcommits) hfirst
  refine ⟨hall, fun id => ?_, hlater, hfailed⟩
  obtain ⟨r, _, hfollows⟩ := hall.runners
  refine Nat.le_antisymm (hfollows.shows.bound id) ?_
  rw [← hlog.consistent.lengths_commits]
  exact hreached id

theorem sequenceNumber_mem (hlog : log.Lawful) {e : Envelope Json} (hmem : e ∈ log.envelopes) :
    0 < e.sequenceNumber ∧ e.sequenceNumber ≤ (log.stream e.aggregateId).length := by
  obtain ⟨stored, hstored, rfl⟩ := List.mem_map.mp hmem
  obtain ⟨hpos, hplace⟩ := hlog.consistent.getElem?_stream hstored
  have hlt := (List.getElem?_eq_some_iff.mp hplace).1
  exact ⟨hpos, by change stored.sequenceNumber ≤ (log.stream stored.aggregateId).length; omega⟩

/-- At the end of the log nothing is parked. -/
theorem Follows.backlog_eq_nil (hlog : log.Lawful) (h : m.Follows log r w) (hend : m.AtEnd log w) :
    r.backlog.envelopes = [] := by
  apply List.eq_nil_iff_forall_not_mem.mpr
  intro e hmem
  have hle := (sequenceNumber_mem hlog (h.parked e hmem)).2
  rw [← hend] at hle
  exact Nat.not_lt_of_le hle (Nat.lt_of_succ_lt (h.waits e hmem))

theorem Tracked.parked_atEnd (hlog : log.Lawful) {reg : Registry ω} (h : m.Tracked log reg w)
    (hend : m.AtEnd log w) : ∀ r ∈ reg.runners, r.parkedCount = 0 := by
  obtain ⟨r, hr, hfollows⟩ := h.runners
  intro r' hmem
  rw [hr, List.mem_singleton] at hmem
  rw [hmem, Runner.parkedCount, Backlog.size, hfollows.backlog_eq_nil hlog hend]
  rfl

theorem Follows.apply_atEnd (hlog : log.Lawful) (h : m.Follows log r w) (hend : m.AtEnd log w)
    {e : Envelope Json} (hmem : e ∈ log.envelopes) :
    ∃ w', r.apply e w = ((.ok .duplicate, r), w') ∧ m.observation.Still w w' := by
  obtain ⟨hpos, hle⟩ := sequenceNumber_mem hlog hmem
  have hcursor : m.observation.cursor w e.aggregateId = (log.stream e.aggregateId).length := hend _
  have hcases := Runner.apply_cases h.lawful e w
  generalize r.apply e w = step at hcases
  cases hcases with
  | unnumbered hzero => omega
  | @duplicate w' _ still => exact ⟨w', rfl, still⟩
  | parked hahead => omega
  | refused _ hnext => omega
  | applied _ _ consumes =>
    have hnext := consumes.head.1
    omega

theorem Tracked.dispatchAll_atEnd (hlog : log.Lawful) {reg : Registry ω} (h : m.Tracked log reg w)
    (hend : m.AtEnd log w) {es : List (Envelope Json)} (hmem : ∀ e ∈ es, e ∈ log.envelopes) :
    ∃ w', reg.dispatchAll es w = (reg, w') ∧ m.observation.Still w w' := by
  induction es generalizing w with
  | nil => exact ⟨w, rfl, m.tracks.still.refl w⟩
  | cons e es ih =>
    rw [List.forall_mem_cons] at hmem
    obtain ⟨r, hr, hfollows⟩ := h.runners
    obtain ⟨w', happly, hstill⟩ := hfollows.apply_atEnd hlog hend hmem.1
    have hdispatch : reg.dispatch e w = (([], reg), w') := by
      obtain ⟨runners, o⟩ := reg
      subst hr
      simp only [Registry.dispatch, Registry.feedAll, Registry.feed, bind_apply, happly]
      rfl
    obtain ⟨w'', hall, hstill'⟩ := ih (h.still hstill) (hend.still hstill) hmem.2
    refine ⟨w'', ?_, m.tracks.still.trans hstill hstill'⟩
    rw [Registry.dispatchAll, bind_apply, hdispatch]
    exact hall

theorem Tracked.catchUp_atEnd (hlog : log.Lawful) {reg : Registry ω} (h : m.Tracked log reg w)
    (hend : m.AtEnd log w) :
    (reg.catchUp (.replica (.ok log.commits)) w).1.2 = reg ∧
      m.observation.Still w (reg.catchUp (.replica (.ok log.commits)) w).2 := by
  have hmem : ∀ e ∈ log.commits.map StoredEvent.envelope, e ∈ log.envelopes := fun _ he => he
  obtain ⟨w', hall, hstill⟩ := h.dispatchAll_atEnd hlog hend hmem
  have htracked := h.dispatchAll hlog hmem
  obtain ⟨w'', hcatch, hstill'⟩ := catchUp_replica htracked
  rw [hall] at hcatch hstill'
  rw [hcatch]
  exact ⟨rfl, m.tracks.still.trans hstill hstill'⟩

theorem Follows.retryOne_atEnd (hlog : log.Lawful) (h : m.Follows log r w)
    (hend : m.AtEnd log w) (o : Outbox) {failure : FailedUpdate}
    (hmem : failure.envelope ∈ log.envelopes) :
    ∃ resolved w', Registry.retryOne failure [r] o w = ((resolved, [r], o), w') ∧
      m.observation.Still w w' := by
  by_cases hname : r.name = failure.projection
  · obtain ⟨w', happly, hstill⟩ := h.apply_atEnd hlog hend hmem
    refine ⟨true, w', ?_, hstill⟩
    rw [Registry.retryOne, if_pos hname, bind_apply, happly]
    rfl
  · refine ⟨false, w, ?_, m.tracks.still.refl w⟩
    rw [Registry.retryOne, if_neg hname]
    rfl

theorem Follows.retryEach_atEnd (hlog : log.Lawful) (h : m.Follows log r w)
    (hend : m.AtEnd log w) (o : Outbox) {failures : List FailedUpdate}
    (hmem : ∀ f ∈ failures, f.envelope ∈ log.envelopes) :
    ∃ count w', Registry.retryEach failures [r] o w = ((count, [r], o), w') ∧
      m.observation.Still w w' := by
  induction failures generalizing w with
  | nil => exact ⟨0, w, rfl, m.tracks.still.refl w⟩
  | cons failure failures ih =>
    rw [List.forall_mem_cons] at hmem
    obtain ⟨resolved, w', hone, hstill⟩ := h.retryOne_atEnd hlog hend o hmem.1
    obtain ⟨count, w'', heach, hstill'⟩ := ih (h.still hstill) (hend.still hstill) hmem.2
    refine ⟨(if resolved then 1 else 0) + count, w'', ?_, m.tracks.still.trans hstill hstill'⟩
    rw [Registry.retryEach, bind_apply, hone]
    simp only [bind_apply, heach]
    rfl

theorem Tracked.retryFailed_atEnd (hlog : log.Lawful) {reg : Registry ω}
    (h : m.Tracked log reg w) (hend : m.AtEnd log w) :
    (reg.retryFailed w).1.2 = ⟨reg.runners, { reg.outbox with failed := [] }⟩ ∧
      m.observation.Still w (reg.retryFailed w).2 := by
  obtain ⟨⟨r, hr, hfollows⟩, hqueue⟩ := h
  obtain ⟨runners, o⟩ := reg
  subst hr
  obtain ⟨count, w', heach, hstill⟩ :=
    hfollows.retryEach_atEnd hlog hend { o with failed := [] } hqueue
  have htracked : m.Tracked log ⟨[r], { o with failed := [] }⟩ w' :=
    ⟨⟨r, rfl, hfollows.still hstill⟩, fun _ hf => absurd hf List.not_mem_nil⟩
  simp only [Registry.retryFailed, Registry.failures, bind_apply, heach, htracked.drainParked]
  split
  · exact ⟨rfl, m.tracks.still.report hstill _ _ _⟩
  · exact ⟨rfl, hstill⟩

/-- A reliable read model catches up with the whole log. -/
theorem Tracked.catchUp_steady (hlog : log.Lawful) {reg : Registry ω} (h : m.Tracked log reg w)
    (hsteady : m.steady w) : m.AtEnd log (reg.catchUp (.replica (.ok log.commits)) w).2 := by
  obtain ⟨hall, hend, _⟩ := h.dispatchAll_rest hlog hsteady (List.nil_append log.commits).symm
    fun id => Nat.zero_le _
  obtain ⟨w', hcatch, hstill⟩ := catchUp_replica hall
  rw [hcatch]
  exact hend.still hstill

end RowModel

end IdentityLedger
