import IdentityLedger.Proofs.Projection.DeliveryOrder

/-!
# Rebuilding

A rebuild starts by forgetting: rows, cursors, parked envelopes and, once it succeeded, the
failures that were queued. From there every envelope of a log, in the order of its commit,
is the next one of its stream, so nothing is parked on the way and each is applied once.
What is left is a function of the log alone.
-/
namespace IdentityLedger

namespace RowModel
variable {ω : Type} [Journal ω] {m : RowModel ω} {log : EventLog} {w : ω}

/-- From a state on, no operation on the rows fails, and a store holds the log. -/
structure Healthy (m : RowModel ω) (log : EventLog) (store : EventStore ω) (w : ω) : Prop where
  steady : m.steady w
  clear : ∀ {w'}, m.later w w' → ∀ error, (m.rows.clear w').1 ≠ .error error
  loadAll : ∀ {w'}, m.later w w' → store.loadAll w' = (.ok log.commits, w')

theorem Healthy.later {store : EventStore ω} {a b : ω} (h : m.Healthy log store a)
    (hlater : m.later a b) : m.Healthy log store b where
  steady := m.reliable.later h.steady hlater
  clear hlater' := h.clear (m.tracks.frame.trans hlater hlater')
  loadAll hlater' := h.loadAll (m.tracks.frame.trans hlater hlater')

theorem Follows.apply_next (hlog : log.Lawful) (h : m.Follows log m.runner w)
    (hsteady : m.steady w) {e : Envelope Json} (hmem : e ∈ log.envelopes)
    (hnext : e.sequenceNumber = m.cursor w e.aggregateId + 1) :
    ∃ w', m.runner.apply e w =
        ((.ok (.applied ⟨[(profileProjection m.rows).report e], []⟩), m.runner), w') ∧
      m.cursor w' = Function.update (m.cursor w) e.aggregateId e.sequenceNumber ∧ m.later w w' := by
  have hcursor : m.observation.cursor w e.aggregateId + 1 = e.sequenceNumber := hnext.symm
  have hcases := Runner.apply_cases h.lawful e w
  generalize m.runner.apply e w = step at hcases
  cases hcases with
  | unnumbered hzero => omega
  | duplicate hbehind => omega
  | parked hahead => omega
  | @refused error w' _ refuses still =>
    refine absurd refuses (not_refuses hlog hsteady (shows_still still h.shows) hmem ?_)
    rw [show m.cursor w' = m.cursor w from still.cursor]
    exact hnext
  | @applied w' es stalled consumes hparked stalls =>
    have hnone : es = [] := by
      apply List.eq_nil_iff_forall_not_mem.mpr
      intro e' hmem'
      exact absurd (hparked e' hmem').2 List.not_mem_nil
    subst hnone
    have hlater := consumes.later m.lawful
    cases stalls with
    | one error found => exact absurd (Backlog.mem_of_find? found).1 List.not_mem_nil
    | none =>
      cases consumes with
      | cons takes rest =>
        cases rest with
        | nil still => exact ⟨w', rfl, still.cursor.trans takes.cursor, hlater⟩

/-- Envelopes that lead on from the cursors are applied one by one. -/
theorem Follows.replay_leads (hlog : log.Lawful) (h : m.Follows log m.runner w)
    (hsteady : m.steady w) {es : List (Envelope Json)} (hmem : ∀ e ∈ es, e ∈ log.envelopes)
    {place last : AggregateId → Nat} (hleads : Leads place es last) (hplace : m.cursor w = place)
    (count : Nat) :
    ∃ w', m.runner.replay count es w = ((.ok (count + es.length), m.runner), w') ∧
      m.Follows log m.runner w' ∧ m.cursor w' = last ∧ m.later w w' := by
  induction hleads generalizing w count with
  | nil place => exact ⟨w, rfl, h, hplace, m.tracks.frame.refl w⟩
  | @cons place last e es next _ ih =>
    rw [List.forall_mem_cons] at hmem
    subst hplace
    have hfollows := h.apply hlog hmem.1
    obtain ⟨w', happly, hcursor, hlater⟩ := h.apply_next hlog hsteady hmem.1 next
    rw [happly] at hfollows
    obtain ⟨w'', hreplay, hfollows', hcursor', hlater'⟩ :=
      ih hfollows (m.reliable.later hsteady hlater) hmem.2 hcursor (count + 1)
    refine ⟨w'', ?_, hfollows', hcursor', m.tracks.frame.trans hlater hlater'⟩
    have hcount : count + 1 + es.length = count + (e :: es).length := by
      rw [List.length_cons]
      omega
    rw [Runner.replay, bind_apply, happly, ← hcount]
    exact hreplay

/-- A reset forgets rows, cursors and what is parked, whatever they were. -/
theorem reset_forgets (backlog : Backlog) (hclear : ∀ error, (m.rows.clear w).1 ≠ .error error) :
    ∃ w', (m.runner.withBacklog backlog).reset w = ((.ok (), m.runner), w') ∧
      m.cursor w' = (fun _ => 0) ∧ m.table w' = .empty ∧ m.later w w' := by
  have hreset := m.serves.clear w
  have hresult : (m.runner.withBacklog backlog).projection.reset w = m.rows.clear w := rfl
  rw [Runner.reset, bind_apply, hresult]
  generalize m.rows.clear w = step at hreset hclear
  obtain ⟨_ | _, w'⟩ := step
  · exact absurd rfl (hclear _)
  · have hcursor : m.cursor (m.cursors.clear profileProjectionName w').2 = fun _ => 0 :=
      m.tracks.cursor_clear w'
    have htable : m.table (m.cursors.clear profileProjectionName w').2 = m.table w' :=
      m.tracks.model_clear w'
    exact ⟨_, rfl, hcursor, htable.trans hreset.model,
      m.tracks.frame.trans hreset.later (m.tracks.later_clear w')⟩

theorem runner_rebuild (hlog : log.Lawful) {store : EventStore ω} (h : m.Healthy log store w)
    (backlog : Backlog) :
    ∃ w', (m.runner.withBacklog backlog).rebuild log.envelopes w =
        ((.ok log.commits.length, m.runner), w') ∧
      m.Follows log m.runner w' ∧ m.AtEnd log w' ∧ m.later w w' := by
  obtain ⟨w₁, hreset, hcursor, htable, hlater⟩ :=
    reset_forgets backlog (h.clear (m.tracks.frame.refl w))
  have hleads := hlog.consistent.leads (List.nil_append log.commits).symm
  obtain ⟨w₂, hreplay, hfollows, hend, hlater'⟩ := Follows.replay_leads hlog
    (.start hcursor htable) (h.later hlater).steady (fun _ he => he) hleads hcursor 0
  refine ⟨w₂, ?_, hfollows, fun id => ?_, m.tracks.frame.trans hlater hlater'⟩
  · have hcount : 0 + log.envelopes.length = log.commits.length := by
      rw [Nat.zero_add, EventLog.envelopes, List.length_map]
    rw [hcount] at hreplay
    rw [Runner.rebuild, bind_apply, hreset]
    dsimp only
    rw [bind_apply, hreplay]
    rfl
  · rw [hend, hlog.consistent.lengths_commits]

/-- What a rebuild has answered and left behind: one runner with nothing parked, no queued
failures, and the rows and the cursors of the log. -/
structure Rebuilt (m : RowModel ω) (log : EventLog)
    (step : (Except RebuildError Nat × Registry ω) × ω) : Prop where
  result : step.1.1 = .ok log.commits.length
  runners : step.1.2.runners = [m.runner]
  parked : ∀ r ∈ step.1.2.runners, r.parkedCount = 0
  failed : step.1.2.outbox.failed = []
  table : m.table step.2 = .ofCommits log.commits
  cursor : ∀ id, m.cursor step.2 id = (log.stream id).length

theorem rebuilt_of_eq {step : (Except RebuildError Nat × Registry ω) × ω} {o : Outbox} {w' : ω}
    (h : step = ((.ok log.commits.length, ⟨[m.runner], { o with failed := [] }⟩), w'))
    (htable : m.table w' = .ofCommits log.commits) (hend : m.AtEnd log w') : m.Rebuilt log step := by
  subst h
  refine ⟨rfl, rfl, fun r hmem => ?_, rfl, htable, hend⟩
  rw [List.mem_singleton.mp hmem]
  rfl

theorem registry_rebuild (hlog : log.Lawful) {store : EventStore ω} (h : m.Healthy log store w)
    (backlog : Backlog) {o : Outbox} (hfailed : ∀ f ∈ o.failed, f.projection = profileProjectionName) :
    ∃ w', (⟨[m.runner.withBacklog backlog], o⟩ : Registry ω).rebuild store w =
        ((.ok log.commits.length, ⟨[m.runner], { o with failed := [] }⟩), w') ∧
      m.table w' = .ofCommits log.commits ∧ m.AtEnd log w' ∧ m.later w w' := by
  obtain ⟨w₁, hrebuild, hfollows, hend, hlater⟩ := runner_rebuild hlog h backlog
  have hnone : (o.failed.filter fun f => f.projection ≠ profileProjectionName) = [] := by
    rw [List.filter_eq_nil_iff]
    intro f hmem
    simpa using hfailed f hmem
  have hstill := m.tracks.still.report (m.tracks.still.refl w₁) .info "projection rebuilt"
    [("projection", .text profileProjectionName), ("applied", .number log.commits.length)]
  refine ⟨_, ?_, (hfollows.still hstill).shows.eq_ofCommits hlog (hend.still hstill),
    hend.still hstill, m.tracks.frame.trans hlater hstill.later⟩
  rw [Registry.rebuild, bind_apply, h.loadAll (m.tracks.frame.refl w)]
  change (Registry.rebuildRunners log.envelopes 0 [m.runner.withBacklog backlog] o >>= _) w = _
  rw [bind_apply, Registry.rebuildRunners, bind_apply, hrebuild]
  simp only [bind_apply, Registry.rebuildRunners, pure_apply, Nat.zero_add]
  rw [← hnone]
  rfl

end RowModel

/-- From whatever state it starts, a rebuild over rows that do not fail leaves what the log
alone determines: the rows of its commits in their order, which are those of a fresh runner
that is fed the log, every cursor at the end of its stream, and nothing parked or queued. A
second rebuild finds the same registry, rows and cursors, and leaves them. -/
theorem rebuild_of_log {ω : Type} [Journal ω] (m : RowModel ω) {log : EventLog}
    (hlog : log.Written) {store : EventStore ω} {w : ω} (hhealthy : m.Healthy log store w)
    (backlog : Backlog) {o : Outbox} (hfailed : ∀ f ∈ o.failed, f.projection = profileProjectionName)
    {fresh : ω} (hsteady : m.steady fresh) (hcursor : m.cursor fresh = fun _ => 0)
    (htable : m.table fresh = .empty) :
    let first := (⟨[m.runner.withBacklog backlog], o⟩ : Registry ω).rebuild store w
    let again := first.1.2.rebuild store first.2
    m.Rebuilt log first ∧ m.table first.2 = m.table (m.runner.submitAll log.envelopes fresh).2 ∧
      m.Rebuilt log again ∧ again.1.2 = first.1.2 ∧ m.table again.2 = m.table first.2 ∧
        m.cursor again.2 = m.cursor first.2 := by
  intro first again
  have hlawful := hlog.lawful
  obtain ⟨w₁, hfirst, hrows, hend, hlater⟩ :=
    RowModel.registry_rebuild hlawful hhealthy backlog hfailed
  obtain ⟨w₂, hagain, hrows', hend', _⟩ :=
    RowModel.registry_rebuild hlawful (hhealthy.later hlater) .empty
      (o := { o with failed := [] }) (fun _ hmem => absurd hmem List.not_mem_nil)
  have hfed : m.Fed log log.envelopes _ _ (m.runner.submitAll log.envelopes fresh).2 :=
    (RowModel.Fed.start hcursor htable hsteady).submitAll hlawful fun _ he => he
  have hfresh := hfed.follows.shows.eq_ofCommits hlawful (hfed.atEnd hlawful fun _ he => he)
  have hfirst' : first = _ := hfirst
  have hagain' : again = ((.ok log.commits.length, ⟨[m.runner], { o with failed := [] }⟩), w₂) := by
    change first.1.2.rebuild store first.2 = _
    rw [hfirst']
    exact hagain
  refine ⟨RowModel.rebuilt_of_eq hfirst' hrows hend, ?_, RowModel.rebuilt_of_eq hagain' hrows' hend',
    ?_, ?_, ?_⟩
  · rw [hfirst', hrows, hfresh]
  · rw [hagain', hfirst']
  · rw [hagain', hfirst', hrows, hrows']
  · rw [hagain', hfirst']
    funext id
    rw [hend, hend']

theorem Memory.healthy (w : Memory) :
    Memory.rowModel.Healthy w.events (EventLog.store Memory.eventCell) w where
  steady := trivial
  clear _ _ herror := nomatch herror
  loadAll {w'} hlater := by
    have hevents : w'.events = w.events := hlater
    rw [← hevents]
    rfl

/-- A row that the log does not explain, a cursor that is too far, all envelopes parked and
all updates queued as failed. -/
theorem rebuild_of_log_mintedLog :
    let time : Timestamp := ⟨⟨2021, 3, 4, by decide, by decide⟩, ⟨5, 6, 7, 8, by decide, by decide,
      by decide, by decide⟩, by decide⟩
    let w : Memory := { Memory.empty with
      events := mintedLog
      rows := Table.empty.insert ⟨⟨9⟩⟩ (.created ⟨⟨9⟩⟩ ⟨⟨2⟩⟩ time)
      cursors := CursorTable.empty.update profileProjectionName ⟨⟨1⟩⟩ 7 }
    let o : Outbox :=
      ⟨mintedLog.envelopes.map fun e => ⟨profileProjectionName, e, .store "unavailable", 1⟩, .new⟩
    let store := EventLog.store Memory.eventCell
    mintedLog.Written ∧ Memory.rowModel.Healthy mintedLog store w ∧
      (∀ f ∈ o.failed, f.projection = profileProjectionName) ∧
      Memory.rowModel.steady .empty ∧ Memory.rowModel.cursor .empty = (fun _ => 0) ∧
      Memory.rowModel.table .empty = .empty ∧
      let first := (⟨[Memory.rowModel.runner.withBacklog ⟨mintedLog.envelopes⟩], o⟩ :
        Registry Memory).rebuild store w
      let again := first.1.2.rebuild store first.2
      Memory.rowModel.Rebuilt mintedLog first ∧ Memory.rowModel.table first.2 =
          Memory.rowModel.table (Memory.rowModel.runner.submitAll mintedLog.envelopes .empty).2 ∧
        Memory.rowModel.Rebuilt mintedLog again ∧ again.1.2 = first.1.2 ∧
          Memory.rowModel.table again.2 = Memory.rowModel.table first.2 ∧
            Memory.rowModel.cursor again.2 = Memory.rowModel.cursor first.2 := by
  intro time w o store
  have hlog := mintedLog_written
  have hhealthy : Memory.rowModel.Healthy mintedLog store w := Memory.healthy w
  have hfailed : ∀ f ∈ o.failed, f.projection = profileProjectionName := by
    intro f hmem
    obtain ⟨_, _, rfl⟩ := List.mem_map.mp hmem
    rfl
  exact ⟨hlog, hhealthy, hfailed, trivial, rfl, rfl,
    rebuild_of_log Memory.rowModel hlog hhealthy _ hfailed trivial rfl rfl⟩

end IdentityLedger
