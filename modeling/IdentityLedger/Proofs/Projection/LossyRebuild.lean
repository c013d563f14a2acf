import IdentityLedger.Proofs.Projection.Rebuild
import IdentityLedger.Proofs.Projection.UnreliableCursors

/-!
# Rebuilding over cursors that get lost

A rebuild over a cursor store of which any operation may fail unnoticed: a read that shows no
cursor, a write that is dropped, and cursors that stay where they should have been cleared.
Each envelope of a log comes once, in the order of its commit, so a submission applies that
envelope alone or passes it over: what was parked before lies behind it and is not next. The
count of a rebuild is therefore that of its log exactly if nothing was passed over, and then
the rows are those of the log.

If the cursors were cleared, an event that is passed over stays parked, and the rebuild does
not succeed. If they were not, it takes the events of the log for duplicates, and succeeds.
-/
namespace IdentityLedger

/-- A profile read model beside a cursor store that may fail at any time. -/
structure LossyModel (ω : Type) [Journal ω] where
  rows : RowStore ω
  cursors : CursorStore ω
  stored : ω → AggregateId → Nat
  table : ω → RowTable
  serves : (Observation.ofRows stored table fun _ _ => True).Serves rows
  stored_note : ∀ record w, stored (Journal.note record w) = stored w
  table_note : ∀ record w, table (Journal.note record w) = table w
  /-- A read shows what is stored, or nothing. -/
  get : ∀ id w, let (answer, w') := cursors.get profileProjectionName id w
    (answer.getD 0 = stored w id ∨ answer = none) ∧ stored w' = stored w ∧ table w' = table w
  /-- A write is stored, or dropped. -/
  update : ∀ id number w, let w' := (cursors.update profileProjectionName id number w).2
    (stored w' = Function.update (stored w) id number ∨ stored w' = stored w) ∧ table w' = table w
  /-- The cursors are cleared, or all of them stay. -/
  clear : ∀ w, let w' := (cursors.clear profileProjectionName w).2
    ((stored w' = fun _ => 0) ∨ stored w' = stored w) ∧ table w' = table w

namespace LossyModel
variable {ω : Type} [Journal ω] (m : LossyModel ω)

def runner : Runner ω := .new (profileProjection m.rows) m.cursors

def observation : Observation ω RowTable := .ofRows m.stored m.table fun _ _ => True

theorem still : Frame m.observation.Still where
  refl _ := ⟨rfl, rfl, trivial⟩
  trans hab hbc := ⟨hbc.cursor.trans hab.cursor, hbc.model.trans hab.model, trivial⟩
  note record w := ⟨m.stored_note record w, m.table_note record w, trivial⟩

theorem frame : Frame m.observation.later := ⟨fun _ => trivial, fun _ _ => trivial, fun _ _ => trivial⟩

variable {m} {log : EventLog} {w : ω} {backlog : Backlog}

/-- What a runner reads as its cursor. -/
structure Reads (m : LossyModel ω) (w : ω) (id : AggregateId) (step : Nat × ω) : Prop where
  number : step.1 = m.stored w id ∨ step.1 = 0
  still : m.observation.Still w step.2

theorem reads (backlog : Backlog) (id : AggregateId) (w : ω) :
    m.Reads w id ((m.runner.withBacklog backlog).cursor id w) := by
  have hget := m.get id w
  refine ⟨?_, hget.2.1, hget.2.2, trivial⟩
  rcases hget.1 with hstored | hnone
  · exact .inl hstored
  · refine .inr ?_
    change ((m.cursors.get profileProjectionName id w).1.getD 0) = 0
    rw [hnone]
    rfl

/-- The event of an envelope is absorbed, and the write of its number is stored or dropped. -/
structure Absorbs (m : LossyModel ω) (e : Envelope Json) (a b : ω) : Prop where
  table : ∃ event, ProfileEvent.decode e.payload = .ok event ∧ m.table b = (m.table a).absorb event
  stored : m.stored b = Function.update (m.stored a) e.aggregateId e.sequenceNumber ∨
    m.stored b = m.stored a

theorem Absorbs.still {e : Envelope Json} {a b c d : ω} (h : m.Absorbs e b c)
    (hab : m.observation.Still a b) (hcd : m.observation.Still c d) : m.Absorbs e a d := by
  have hstored : m.stored b = m.stored a := hab.cursor
  have htable : m.table b = m.table a := hab.model
  have hstored' : m.stored d = m.stored c := hcd.cursor
  have htable' : m.table d = m.table c := hcd.model
  constructor
  · rw [← htable, htable']
    exact h.table
  · rw [← hstored, hstored']
    exact h.stored

/-- An envelope of the log is refused, or absorbed. -/
theorem applyNext_cases (hlog : log.Lawful) {e : Envelope Json} (hmem : e ∈ log.envelopes)
    (backlog : Backlog) (w : ω) :
    (∃ error w', (m.runner.withBacklog backlog).applyNext e w = (.error error, w')) ∨
      ∃ w', (m.runner.withBacklog backlog).applyNext e w =
        (.ok ((profileProjection m.rows).report e), w') ∧ m.Absorbs e w w' := by
  obtain ⟨stored, hstored, rfl⟩ := List.mem_map.mp hmem
  have hhandles : (m.runner.withBacklog backlog).projection.handles stored.envelope.eventType = true :=
    hlog.handles hstored m.rows
  have hpos := (hlog.consistent.getElem?_stream hstored).1
  obtain ⟨event, hholds, _⟩ := hlog.place hstored (Nat.sub_add_cancel hpos).symm
  have hdecode : ProfileEvent.decode stored.envelope.payload = .ok event := hholds.decode_payload
  have hreceive : (m.runner.withBacklog backlog).projection.receive stored.envelope w =
      m.rows.project event w := by
    simp only [runner, Runner.withBacklog, Runner.new, profileProjection, Projection.decoded, hdecode]
    rfl
  have hproject := m.serves.project m.still m.frame event w
  rw [Runner.applyNext, bind_apply, if_pos hhandles, hreceive]
  generalize m.rows.project event w = step at hproject
  obtain ⟨error | _, w'⟩ := step
  · exact .inl ⟨error, w', rfl⟩
  · obtain ⟨hstored', htable⟩ := m.update stored.aggregateId stored.sequenceNumber w'
    have hcursor : m.stored w' = m.stored w := hproject.cursor
    have hmodel : m.table w' = (m.table w).absorb event := hproject.model
    refine .inr ⟨_, rfl, ⟨event, hdecode, htable.trans hmodel⟩, ?_⟩
    rw [← hcursor]
    exact hstored'

/-- The envelopes before `place` have been submitted, and what is parked is of them. It cannot
be the first of its stream, for which no cursor is too low. -/
structure Parks (backlog : Backlog) (place : AggregateId → Nat) : Prop where
  two_le : ∀ e ∈ backlog.envelopes, 2 ≤ e.sequenceNumber
  le_place : ∀ e ∈ backlog.envelopes, e.sequenceNumber ≤ place e.aggregateId

/-- Right after an envelope was absorbed, nothing that was parked before it is next. -/
theorem drain_nothing {place : AggregateId → Nat} (hparks : Parks backlog place) {e : Envelope Json}
    (hplace : e.sequenceNumber = place e.aggregateId + 1) {a b : ω} (habsorbs : m.Absorbs e a b)
    (hnext : e.sequenceNumber = m.stored a e.aggregateId + 1 ∨ e.sequenceNumber = 1) :
    ∃ cursor w', (m.runner.withBacklog backlog).drain e.aggregateId b =
        ((.none, m.runner.withBacklog (backlog.prune e.aggregateId cursor)), w') ∧
      m.observation.Still b w' := by
  have hfirst := m.reads backlog e.aggregateId b
  generalize hread : (m.runner.withBacklog backlog).cursor e.aggregateId b = step at hfirst
  obtain ⟨cursor, b'⟩ := step
  have hsecond := m.reads backlog e.aggregateId b'
  generalize hread' : (m.runner.withBacklog backlog).cursor e.aggregateId b' = step at hsecond
  obtain ⟨cursor', b''⟩ := step
  have habsent : (m.runner.withBacklog backlog).backlog.find? e.aggregateId (cursor + 1) = none := by
    apply Backlog.find?_eq_none
    intro e' hmem hid hnumber
    have htwo := hparks.two_le e' hmem
    have hle := hparks.le_place e' hmem
    rw [hid] at hle
    have hcursor : cursor = m.stored b e.aggregateId ∨ cursor = 0 := hfirst.number
    rcases habsorbs.stored with hwritten | hdropped
    · rw [hwritten, Function.update_self] at hcursor
      omega
    · rw [hdropped] at hcursor
      omega
  refine ⟨cursor', b'', ?_, m.still.trans hfirst.still hsecond.still⟩
  rw [Runner.drain, bind_apply, Runner.drainRounds, bind_apply, hread]
  simp only [habsent, pure_apply, bind_apply, hread']
  rfl

/-- Submitting the next envelope of a log: it is passed over as a duplicate, or parked, or
absorbed alone. -/
inductive Submits (m : LossyModel ω) (backlog : Backlog) (e : Envelope Json) (w : ω) :
    (Except ProjectionError ApplyOutcome × Runner ω) × ω → Prop
  | refused (error : ProjectionError) (r : Runner ω) (w' : ω) : Submits m backlog e w ((.error error, r), w')
  | duplicate {w' : ω} (hbehind : e.sequenceNumber ≤ m.stored w e.aggregateId)
      (still : m.observation.Still w w') :
      Submits m backlog e w ((.ok .duplicate, m.runner.withBacklog backlog), w')
  | parked {w' : ω} (hlater : 2 ≤ e.sequenceNumber) (still : m.observation.Still w w') :
      Submits m backlog e w ((.ok .parked, m.runner.withBacklog (backlog.park e)), w')
  | applied (event : AppliedEvent) (cursor : Nat) {w' : ω} (absorbs : m.Absorbs e w w')
      (hnext : e.sequenceNumber = m.stored w e.aggregateId + 1 ∨ e.sequenceNumber = 1) :
      Submits m backlog e w ((.ok (.applied ⟨[event], []⟩),
        m.runner.withBacklog (backlog.prune e.aggregateId cursor)), w')

theorem apply_cases (hlog : log.Lawful) {place : AggregateId → Nat} (hparks : Parks backlog place)
    {e : Envelope Json} (hmem : e ∈ log.envelopes)
    (hplace : e.sequenceNumber = place e.aggregateId + 1) (w : ω) :
    m.Submits backlog e w ((m.runner.withBacklog backlog).apply e w) := by
  have hread := m.reads backlog e.aggregateId w
  rw [Runner.apply, bind_apply]
  generalize (m.runner.withBacklog backlog).cursor e.aggregateId w = step at hread
  obtain ⟨last, w₁⟩ := step
  have hlast : last = m.stored w e.aggregateId ∨ last = 0 := hread.number
  have hstill : m.observation.Still w w₁ := hread.still
  dsimp only
  rw [if_neg (by omega)]
  by_cases hbehind : e.sequenceNumber ≤ last
  · rw [if_pos hbehind]
    exact .duplicate (by omega) (m.still.trans hstill (m.still.note _ w₁))
  rw [if_neg hbehind]
  by_cases hahead : e.sequenceNumber > last + 1
  · rw [if_pos hahead]
    exact .parked (by omega) (m.still.trans hstill (m.still.note _ w₁))
  rw [if_neg hahead, bind_apply]
  rcases applyNext_cases hlog hmem backlog w₁ with ⟨error, w₂, happly⟩ | ⟨w₂, happly, habsorbs⟩
  · rw [happly]
    exact .refused error _ w₂
  · rw [happly]
    have habsorbs' := habsorbs.still hstill (m.still.refl w₂)
    obtain ⟨cursor, w₃, hdrain, hstill'⟩ := drain_nothing hparks hplace habsorbs' (by omega)
    simp only [bind_apply, hdrain]
    exact .applied _ cursor (habsorbs'.still (m.still.refl w) hstill') (by omega)

/-- How far a replay of a log has come: up to `place` in every stream, with `skipped` events
that it has passed over. Without any, the rows are those of the streams up to there. After
cursors that were `cleared`, one that was passed over still waits. -/
structure Replays (m : LossyModel ω) (log : EventLog) (cleared : Prop) (place : AggregateId → Nat)
    (skipped : Nat) (backlog : Backlog) (w : ω) : Prop where
  parks : Parks backlog place
  shows : skipped = 0 → log.Shows place (m.table w)
  behind : cleared → ∀ id, m.stored w id ≤ place id
  waits : cleared → skipped = 0 ∨
    ∃ e ∈ backlog.envelopes, m.stored w e.aggregateId < e.sequenceNumber

theorem le_update_next {place : AggregateId → Nat} {id : AggregateId} {number : Nat}
    (hplace : number = place id + 1) (other : AggregateId) :
    place other ≤ Function.update place id number other := by
  by_cases hother : other = id
  · rw [hother, Function.update_self, hplace]
    exact Nat.le_succ _
  · rw [Function.update_of_ne hother]

theorem Parks.next {place : AggregateId → Nat} {id : AggregateId} {number : Nat}
    (h : Parks backlog place) (hplace : number = place id + 1) :
    Parks backlog (Function.update place id number) where
  two_le := h.two_le
  le_place e hmem := Nat.le_trans (h.le_place e hmem) (le_update_next hplace _)

variable {cleared : Prop} {place : AggregateId → Nat} {skipped : Nat} {e : Envelope Json} {w' : ω}

/-- An event behind the stored cursor is passed over; cleared cursors are never that far. -/
theorem Replays.duplicate (h : m.Replays log cleared place skipped backlog w)
    (hplace : e.sequenceNumber = place e.aggregateId + 1)
    (hbehind : e.sequenceNumber ≤ m.stored w e.aggregateId) :
    m.Replays log cleared (Function.update place e.aggregateId e.sequenceNumber) (skipped + 1)
      backlog w' := by
  have hnot (hcleared : cleared) : False := by
    have := h.behind hcleared e.aggregateId
    omega
  exact ⟨h.parks.next hplace, nofun, fun hcleared => (hnot hcleared).elim,
    fun hcleared => (hnot hcleared).elim⟩

/-- An event that is parked is ahead of its cleared cursor. -/
theorem Replays.parked (h : m.Replays log cleared place skipped backlog w)
    (hplace : e.sequenceNumber = place e.aggregateId + 1) (hlater : 2 ≤ e.sequenceNumber)
    (hstill : m.observation.Still w w') :
    m.Replays log cleared (Function.update place e.aggregateId e.sequenceNumber) (skipped + 1)
      (backlog.park e) w' where
  parks := by
    have hparks := h.parks.next hplace
    constructor <;> intro e' hmem <;> rcases Backlog.mem_park.mp hmem with rfl | ⟨hmem, _⟩
    · exact hlater
    · exact hparks.two_le e' hmem
    · rw [Function.update_self]
    · exact hparks.le_place e' hmem
  shows := nofun
  behind hcleared id := by
    have hstored : m.stored w' = m.stored w := hstill.cursor
    rw [hstored]
    exact Nat.le_trans (h.behind hcleared id) (le_update_next hplace id)
  waits hcleared := by
    have hstored : m.stored w' = m.stored w := hstill.cursor
    refine .inr ⟨e, Backlog.mem_park.mpr (.inl rfl), ?_⟩
    rw [hstored, hplace]
    exact Nat.lt_succ_of_le (h.behind hcleared _)

/-- An event that is absorbed brings the rows to its place. What waits is of other streams: no
event is absorbed after one of its stream was passed over. -/
theorem Replays.applied (hlog : log.Lawful) (h : m.Replays log cleared place skipped backlog w)
    (hmem : e ∈ log.envelopes) (hplace : e.sequenceNumber = place e.aggregateId + 1)
    (habsorbs : m.Absorbs e w w')
    (hnext : e.sequenceNumber = m.stored w e.aggregateId + 1 ∨ e.sequenceNumber = 1) (cursor : Nat) :
    m.Replays log cleared (Function.update place e.aggregateId e.sequenceNumber) skipped
      (backlog.prune e.aggregateId cursor) w' where
  parks := by
    have hparks := h.parks.next hplace
    exact ⟨fun e' hmem => hparks.two_le e' (Backlog.mem_prune.mp hmem).1,
      fun e' hmem => hparks.le_place e' (Backlog.mem_prune.mp hmem).1⟩
  shows hnone := by
    obtain ⟨stored, hstored, rfl⟩ := List.mem_map.mp hmem
    obtain ⟨event, hdecode, htable⟩ := habsorbs.table
    rw [htable]
    exact (h.shows hnone).absorb hlog hstored hplace hdecode
  behind hcleared id := by
    rcases habsorbs.stored with hwritten | hdropped
    · rw [hwritten]
      exact update_le_update_iff.mpr ⟨Nat.le_refl _, fun id _ => h.behind hcleared id⟩ id
    · rw [hdropped]
      exact Nat.le_trans (h.behind hcleared id) (le_update_next hplace id)
  waits hcleared := by
    refine (h.waits hcleared).imp_right ?_
    rintro ⟨e', hmem', hahead⟩
    have hle := h.parks.le_place e' hmem'
    have htwo := h.parks.two_le e' hmem'
    have hother : e'.aggregateId ≠ e.aggregateId := by
      intro hid
      rw [hid] at hle hahead
      omega
    refine ⟨e', Backlog.mem_prune.mpr ⟨hmem', fun hpruned => hother hpruned.1⟩, ?_⟩
    rcases habsorbs.stored with hwritten | hdropped
    · rw [hwritten, Function.update_of_ne hother]
      exact hahead
    · rw [hdropped]
      exact hahead

theorem Replays.replay (hlog : log.Lawful) {last : AggregateId → Nat} {es : List (Envelope Json)}
    (hleads : Leads place es last) (hes : ∀ e ∈ es, e ∈ log.envelopes)
    (h : m.Replays log cleared place skipped backlog w) {count total : Nat} {r : Runner ω}
    (hreplay : (m.runner.withBacklog backlog).replay count es w = ((.ok total, r), w')) :
    ∃ skipped' backlog', r = m.runner.withBacklog backlog' ∧
      total + skipped' = count + skipped + es.length ∧
      m.Replays log cleared last skipped' backlog' w' := by
  induction hleads generalizing backlog w skipped count with
  | nil place =>
    cases hreplay
    exact ⟨skipped, backlog, rfl, rfl, h⟩
  | @cons place last e es next _ ih =>
    rw [List.forall_mem_cons] at hes
    have hcases := apply_cases (m := m) hlog h.parks hes.1 next w
    rw [Runner.replay, bind_apply] at hreplay
    generalize (m.runner.withBacklog backlog).apply e w = step at hcases hreplay
    cases hcases with
    | refused => cases hreplay
    | duplicate hbehind =>
      obtain ⟨skipped', backlog', hr, hcount, hlast⟩ := ih hes.2 (h.duplicate next hbehind) hreplay
      exact ⟨skipped', backlog', hr, by rw [hcount, List.length_cons]; omega, hlast⟩
    | parked hlater still =>
      obtain ⟨skipped', backlog', hr, hcount, hlast⟩ := ih hes.2 (h.parked next hlater still) hreplay
      exact ⟨skipped', backlog', hr, by rw [hcount, List.length_cons]; omega, hlast⟩
    | applied event cursor absorbs hnext =>
      obtain ⟨skipped', backlog', hr, hcount, hlast⟩ :=
        ih hes.2 (h.applied hlog hes.1 next absorbs hnext cursor) hreplay
      refine ⟨skipped', backlog', hr, ?_, hlast⟩
      change total + skipped' = count + 1 + skipped + es.length at hcount
      rw [hcount, List.length_cons]
      omega

theorem reset_cases (backlog : Backlog) (w : ω) {answer : Except ProjectionError Unit} {r : Runner ω}
    (h : (m.runner.withBacklog backlog).reset w = ((answer, r), w')) :
    (∃ error, answer = .error error) ∨
      answer = .ok () ∧ r = m.runner.withBacklog .empty ∧ m.table w' = .empty := by
  have hclear := m.serves.clear w
  have hresult : (m.runner.withBacklog backlog).projection.reset w = m.rows.clear w := rfl
  rw [Runner.reset, bind_apply, hresult] at h
  generalize m.rows.clear w = step at hclear h
  obtain ⟨error | _, w₁⟩ := step
  · cases h
    exact .inl ⟨error, rfl⟩
  · cases h
    have htable : m.table w₁ = .empty := hclear.model
    exact .inr ⟨rfl, rfl, (m.clear w₁).2.trans htable⟩

end LossyModel

/-- From whatever state it starts, and whatever reads and writes of its cursors fail: a rebuild
that succeeds counts no more events than its log has. If it counts all of them, the rows are those
of the log; and it counts all of them if its reset has cleared the cursors. -/
theorem rebuild_of_lossy {ω : Type} [Journal ω] (m : LossyModel ω) {log : EventLog}
    (hlog : log.Written) (backlog : Backlog) (w : ω) {count : Nat} {r : Runner ω} {w' : ω}
    (h : (m.runner.withBacklog backlog).rebuild log.envelopes w = ((.ok count, r), w')) :
    count ≤ log.commits.length ∧
      (count = log.commits.length → m.table w' = .ofCommits log.commits) ∧
      ((∀ id, m.stored ((m.runner.withBacklog backlog).reset w).2 id = 0) →
        count = log.commits.length) := by
  have hlawful := hlog.lawful
  rw [Runner.rebuild, bind_apply] at h
  generalize hreset : (m.runner.withBacklog backlog).reset w = step at h ⊢
  obtain ⟨⟨answer, r₁⟩, w₁⟩ := step
  rcases LossyModel.reset_cases backlog w hreset with ⟨error, rfl⟩ | ⟨rfl, rfl, htable⟩
  · cases h
  dsimp only at h ⊢
  rw [bind_apply] at h
  generalize hreplay : (m.runner.withBacklog .empty).replay 0 log.envelopes w₁ = step at h
  obtain ⟨⟨_ | total, r₂⟩, w₂⟩ := step
  · cases h
  have hstart : m.Replays log (∀ id, m.stored w₁ id = 0) (fun _ => 0) 0 .empty w₁ := by
    refine ⟨⟨fun _ hmem => absurd hmem List.not_mem_nil, fun _ hmem => absurd hmem List.not_mem_nil⟩,
      fun _ => ?_, fun hcleared id => Nat.le_of_eq (hcleared id), fun _ => .inl rfl⟩
    rw [htable]
    exact .start log
  have hleads := hlawful.consistent.leads (List.nil_append log.commits).symm
  obtain ⟨skipped, backlog', rfl, hcount, hreplayed⟩ :=
    hstart.replay hlawful hleads (fun _ he => he) hreplay
  rw [List.length_map] at hcount
  obtain ⟨rfl, rfl, hbacklog⟩ : total = count ∧ w₂ = w' ∧ backlog'.envelopes = [] := by
    dsimp only at h
    cases haggregates : (m.runner.withBacklog backlog').backlog.aggregates with
    | nil =>
      rw [haggregates] at h
      cases h
      exact ⟨rfl, rfl, Backlog.eq_nil_of_aggregates haggregates⟩
    | cons id ids =>
      rw [haggregates] at h
      simp only [bind_apply, pure_apply] at h
      cases h
  refine ⟨by omega, fun hall => ?_, fun hcleared => ?_⟩
  · exact (hreplayed.shows (by omega)).eq_ofCommits hlawful hlawful.consistent.lengths_commits
  · rcases hreplayed.waits hcleared with hnone | ⟨e, hmem, _⟩
    · omega
    · rw [hbacklog] at hmem
      exact absurd hmem List.not_mem_nil

theorem Runner.eq_of_answer {ω : Type} {step : (Except ProjectionError Nat × Runner ω) × ω} {count : Nat}
    (h : step.1.1.toOption = some count) : step = ((.ok count, step.1.2), step.2) := by
  obtain ⟨⟨_ | _, _⟩, _⟩ := step
  · cases h
  · cases h
    rfl

namespace FlakyCursors

def lossyModel : LossyModel FlakyCursors where
  rows := RowTable.store rowCell
  cursors := store
  stored := cursor
  table := rows
  serves := {
    get _ _ := ⟨rfl, rfl, rfl, trivial⟩
    upsert _ _ _ := ⟨rfl, rfl, trivial⟩
    remove _ _ := ⟨rfl, rfl, trivial⟩
    clear _ := ⟨rfl, rfl, trivial⟩ }
  stored_note _ _ := rfl
  table_note _ _ := rfl
  get id w := by
    refine ⟨?_, rfl, rfl⟩
    dsimp only [store]
    cases w.fails with
    | true => exact .inr rfl
    | false => exact .inl rfl
  update id number w := by
    obtain ⟨hrows, _, ⟨_, _, hcursor⟩ | ⟨_, _, hcursor⟩⟩ := update_cases id number w
    · exact ⟨.inl hcursor, hrows⟩
    · exact ⟨.inr hcursor, hrows⟩
  clear w := by
    dsimp only [store]
    cases w.fails with
    | true => exact ⟨.inr rfl, rfl⟩
    | false =>
      refine ⟨.inl (funext fun id => ?_), rfl⟩
      change ((w.cursors.clear profileProjectionName).get? profileProjectionName id).getD 0 = 0
      rw [CursorTable.get?_clear, if_pos rfl]
      rfl

end FlakyCursors

def FlakyCursors.seen (faults : Nat → Bool) : FlakyCursors :=
  { (FlakyCursors.runner.submitAll mintedLog.envelopes (.start fun _ => false)).2 with
    calls := 0, faults }

/-- The cursors are cleared; the first read shows nothing, and the last write is dropped. -/
theorem rebuild_of_lossy_mintedLog :
    let m := FlakyCursors.lossyModel
    let w := FlakyCursors.seen fun call => call == 1 || call == 6
    let runner := m.runner.withBacklog ⟨mintedLog.envelopes⟩
    let step := runner.rebuild mintedLog.envelopes w
    mintedLog.Written ∧ m.stored w ⟨⟨1⟩⟩ = 2 ∧ (∀ id, m.stored (runner.reset w).2 id = 0) ∧
      step = ((.ok 2, step.1.2), step.2) ∧ step.2.lost ≠ [] ∧
      m.table step.2 = .ofCommits mintedLog.commits := by
  intro m w runner step
  have hcleared : ∀ id, m.stored (runner.reset w).2 id = 0 := by
    intro id
    change ((w.cursors.clear profileProjectionName).get? profileProjectionName id).getD 0 = 0
    rw [CursorTable.get?_clear, if_pos rfl]
    rfl
  have hlength : mintedLog.commits.length = 2 := by decide +kernel
  have hstep : step = ((.ok 2, step.1.2), step.2) := Runner.eq_of_answer (by decide +kernel)
  obtain ⟨_, hrows, _⟩ := rebuild_of_lossy m mintedLog_written ⟨mintedLog.envelopes⟩ w hstep
  exact ⟨mintedLog_written, by decide +kernel, hcleared, hstep, by decide +kernel, hrows hlength.symm⟩

/-- The cursors are not cleared: the rebuild takes both events for duplicates and succeeds, and
the rows are gone. -/
theorem rebuild_forgets_mintedLog :
    let m := FlakyCursors.lossyModel
    let w := FlakyCursors.seen fun call => call == 0
    let step := m.runner.rebuild mintedLog.envelopes w
    mintedLog.Written ∧ m.table w = .ofCommits mintedLog.commits ∧
      step = ((.ok 0, step.1.2), step.2) ∧ m.table step.2 = .empty ∧
      m.table step.2 ≠ .ofCommits mintedLog.commits := by
  intro m w step
  have hstep : step = ((.ok 0, step.1.2), step.2) := Runner.eq_of_answer (by decide +kernel)
  have hbefore : (m.table w).entries = (RowTable.ofCommits mintedLog.commits).entries := by
    decide +kernel
  have hafter : (m.table step.2).entries = [] := by decide +kernel
  have hrows : (RowTable.ofCommits mintedLog.commits).entries ≠ [] := by decide +kernel
  refine ⟨mintedLog_written, congrArg Table.mk hbefore, hstep, congrArg Table.mk hafter, ?_⟩
  exact fun heq => hrows (heq ▸ hafter)

end IdentityLedger
