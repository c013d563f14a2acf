import IdentityLedger.Proofs.Projection.DeliveryOrder

/-!
# What a registry has heard of a log

A registry over a reliable read model that is fed events of a log in any order, maybe while
the log still grows. Nothing ever fails, and each event it has heard of is behind its cursor
or parked; so once it has heard of all events, the rows are at the end of the log.
-/
namespace IdentityLedger.RowModel
variable {ω : Type} [Journal ω] {m : RowModel ω} {log : EventLog} {heard : List (Envelope Json)}
variable {reg : Registry ω} {w w' : ω} {e : Envelope Json}

theorem stable_later (m : RowModel ω) (start : ω) :
    m.runner.Stable (fun _ => True) (m.later start) where
  note record _ h := m.tracks.frame.trans h (m.tracks.frame.note record _)
  read id w h := by
    rw [Runner.cursor_apply m.lawful]
    exact h
  next {e w} _ h hnext := by
    have hlawful : m.observation.Lawful m.runner.projection m.runner.cursors := m.lawful
    rw [Runner.cursor_apply hlawful] at hnext ⊢
    rcases Runner.applyNext_spec hlawful hnext with ⟨_, w', happly, _, hstill⟩ | ⟨w', happly, htakes⟩
    · rw [happly]
      exact m.tracks.frame.trans h hstill.later
    · rw [happly]
      exact m.tracks.frame.trans h htakes.later

/-- A registry that feeds the read model, and it alone. -/
def Attends (m : RowModel ω) (reg : Registry ω) : Prop :=
  ∃ backlog, reg.runners = [m.runner.withBacklog backlog]

theorem Attends.dispatch (h : m.Attends reg) (e : Envelope Json) (w : ω) :
    m.Attends (reg.dispatch e w).1.2 ∧ m.later w (reg.dispatch e w).2 := by
  obtain ⟨backlog, hr⟩ := h
  have hkeeps : Registry.Keeps (fun _ => True) (m.runner.Remains (fun _ => True) (m.later w)) reg w :=
    ⟨⟨_, hr, rfl, fun _ _ => trivial, m.tracks.frame.refl w⟩, fun _ _ => trivial⟩
  obtain ⟨⟨r, hr, hremains⟩, _⟩ := hkeeps.dispatch (m.stable_later w).invariant trivial
  exact ⟨⟨r.backlog, hr.trans (congrArg (fun r => [r]) hremains.runner)⟩, hremains.state⟩

theorem Fed.congr {outcomes : List (Except ProjectionError ApplyOutcome)} {r : Runner ω}
    (h : m.Fed log heard outcomes r w) (hcursor : m.cursor w' = m.cursor w)
    (htable : m.table w' = m.table w) (hsteady : m.steady w') : m.Fed log heard outcomes r w' where
  follows := h.follows.congr hcursor htable
  steady := hsteady
  accounts e hmem := by
    rw [Accounts, hcursor]
    exact h.accounts e hmem
  known := h.known
  answered := h.answered
  applied := by
    rw [hcursor]
    exact h.applied

/-- A registry with one runner, which accounts for all that it has heard of a log, and no
failures. -/
structure Hears (m : RowModel ω) (log : EventLog) (heard : List (Envelope Json)) (reg : Registry ω)
    (w : ω) : Prop where
  runner : ∃ r outcomes, reg.runners = [r] ∧ m.Fed log heard outcomes r w
  failures : reg.outbox.failed = []

theorem Hears.start (hcursor : m.cursor w = fun _ => 0) (htable : m.table w = .empty)
    (hsteady : m.steady w) (bus : Bus ProjectionUpdated) :
    m.Hears log [] ⟨[m.runner], ⟨[], bus⟩⟩ w :=
  ⟨⟨_, [], rfl, .start hcursor htable hsteady⟩, rfl⟩

theorem Hears.tracked (h : m.Hears log heard reg w) : m.Tracked log reg w where
  runners := by
    obtain ⟨r, _, hr, hfed⟩ := h.runner
    exact ⟨r, hr, hfed.follows⟩
  queue f hmem := by
    rw [h.failures] at hmem
    exact absurd hmem List.not_mem_nil

theorem Hears.congr (h : m.Hears log heard reg w) (hcursor : m.cursor w' = m.cursor w)
    (htable : m.table w' = m.table w) (hsteady : m.steady w') : m.Hears log heard reg w' := by
  obtain ⟨⟨r, outcomes, hr, hfed⟩, hfailures⟩ := h
  exact ⟨⟨r, outcomes, hr, hfed.congr hcursor htable hsteady⟩, hfailures⟩

/-- What is dispatched is heard, and nothing fails. -/
theorem Hears.dispatch (hlog : log.Lawful) (h : m.Hears log heard reg w) (hmem : e ∈ log.envelopes) :
    m.Hears log (heard ++ [e]) (reg.dispatch e w).1.2 (reg.dispatch e w).2 := by
  obtain ⟨⟨r, outcomes, hr, hfed⟩, hfailures⟩ := h
  obtain ⟨runners, o⟩ := reg
  subst hr
  have hafter := hfed.apply hlog hmem
  obtain ⟨outcome, r', w', happly, _, hstalled⟩ := hfed.follows.apply_steady hlog hfed.steady hmem
  rw [happly] at hafter
  simp only [Registry.dispatch, Registry.feedAll, Registry.feed, bind_apply, happly]
  cases outcome with
  | applied progress =>
    obtain ⟨hfailed, hworld⟩ := Outbox.failed_settle (o := o) (hstalled progress rfl) r'.name w'
    simp only [bind_apply, pure_apply, hworld]
    exact ⟨⟨r', _, rfl, hafter⟩, hfailed.trans hfailures⟩
  | duplicate | parked => exact ⟨⟨r', _, rfl, hafter⟩, hfailures⟩

theorem Hears.extend (hlog : log.Lawful) (h : m.Hears log heard reg w) {id : AggregateId}
    {command : ProfileCommand} {committed : List StoredEvent}
    (hcarries : CarriesOut log id command committed) :
    m.Hears (log.extend id committed) heard reg w := by
  obtain ⟨r, outcomes, hr, hfed⟩ := h.runner
  obtain ⟨r', hr', hfollows⟩ := (h.tracked.extend hlog hcarries).runners
  obtain rfl : r = r' := List.singleton_inj.mp (hr.symm.trans hr')
  refine ⟨⟨r, outcomes, hr, hfollows, hfed.steady, hfed.accounts, fun e hmem => ?_, hfed.answered,
    hfed.applied⟩, h.failures⟩
  rw [EventLog.envelopes, EventLog.commits_extend, List.map_append]
  exact List.mem_append_left _ (hfed.known e hmem)

/-- Whoever has heard of all events has brought every cursor to the end of its stream. -/
theorem Hears.atEnd (hlog : log.Lawful) (h : m.Hears log heard reg w)
    (hall : ∀ e ∈ log.envelopes, e ∈ heard) : m.AtEnd log w := by
  obtain ⟨_, _, _, hfed⟩ := h.runner
  exact hfed.atEnd hlog hall

theorem Hears.eq_ofCommits (hlog : log.Lawful) (h : m.Hears log heard reg w)
    (hall : ∀ e ∈ log.envelopes, e ∈ heard) : m.table w = .ofCommits log.commits := by
  obtain ⟨_, _, _, hfed⟩ := h.runner
  exact hfed.follows.shows.eq_ofCommits hlog (hfed.atEnd hlog hall)

end IdentityLedger.RowModel
