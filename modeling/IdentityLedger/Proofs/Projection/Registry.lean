import IdentityLedger.Proofs.Projection.Invariant
import IdentityLedger.Proofs.Projection.Profiles

/-!
# A registry over the profile read model

One runner of the profile projection follows a lawful log if its rows show the streams
up to its cursors and what it has parked still waits. Every operation of the registry
keeps this, whether or not the read model fails. While the read model is reliable, a
submitted envelope that is not too far ahead is taken, and no failure is queued.
-/
namespace IdentityLedger

/-- A profile read model kept in a state: its stores, how they are observed, and from which
states on the rows are reliable. -/
structure RowModel (ω : Type) [Journal ω] where
  rows : RowStore ω
  cursors : CursorStore ω
  cursor : ω → AggregateId → Nat
  table : ω → RowTable
  later : ω → ω → Prop
  steady : ω → Prop
  serves : (Observation.ofRows cursor table later).Serves rows
  tracks : (Observation.ofRows cursor table later).Tracks profileProjectionName cursors
  reliable : (Observation.ofRows cursor table later).Reliable rows steady

/-- The envelopes of a log, in the order of their commit. -/
def EventLog.envelopes (log : EventLog) : List (Envelope Json) := log.commits.map StoredEvent.envelope

theorem EventLog.envelopes_of_commits {log : EventLog} {events : List StoredEvent}
    (h : ∀ stored ∈ events, stored ∈ log.commits) :
    ∀ e ∈ events.map StoredEvent.envelope, e ∈ log.envelopes :=
  fun _ he => List.map_subset StoredEvent.envelope h he

namespace RowModel
variable {ω : Type} [Journal ω] (m : RowModel ω)

def observation : Observation ω RowTable := .ofRows m.cursor m.table m.later

def runner : Runner ω := .new (profileProjection m.rows) m.cursors

theorem lawful : m.observation.Lawful (profileProjection m.rows) m.cursors :=
  m.serves.lawful m.tracks

/-- A runner whose rows show the streams of a log up to its cursors, and whose parked
envelopes are of the log and wait for others. -/
structure Follows (log : EventLog) (r : Runner ω) (w : ω) : Prop where
  runner : r = m.runner.withBacklog r.backlog
  shows : log.Shows (m.cursor w) (m.table w)
  waits : r.Waits m.observation w
  parked : ∀ e ∈ r.backlog.envelopes, e ∈ log.envelopes

variable {m} {log : EventLog} {r : Runner ω} {w : ω}

theorem Follows.start (hcursor : m.cursor w = fun _ => 0) (htable : m.table w = .empty) :
    m.Follows log m.runner w where
  runner := rfl
  shows := by
    rw [hcursor, htable]
    exact .start log
  waits _ hmem := absurd hmem List.not_mem_nil
  parked _ hmem := absurd hmem List.not_mem_nil

theorem Follows.projection_eq (h : m.Follows log r w) : r.projection = profileProjection m.rows := by
  rw [h.runner]
  rfl

theorem Follows.lawful (h : m.Follows log r w) :
    m.observation.Lawful r.projection r.cursors := by
  rw [h.runner]
  exact m.lawful

theorem Follows.withBacklog (h : m.Follows log r w) (backlog : Backlog) :
    r.withBacklog backlog = m.runner.withBacklog backlog := by
  rw [h.runner]
  rfl

theorem shows_still {a b : ω} (hstill : m.observation.Still a b)
    (h : log.Shows (m.cursor a) (m.table a)) : log.Shows (m.cursor b) (m.table b) := by
  have hcursor : m.cursor b = m.cursor a := hstill.cursor
  have htable : m.table b = m.table a := hstill.model
  rw [hcursor, htable]
  exact h

/-- Only the cursors and the rows of the state matter. -/
theorem Follows.congr {a b : ω} (h : m.Follows log r a) (hcursor : m.cursor b = m.cursor a)
    (htable : m.table b = m.table a) : m.Follows log r b where
  runner := h.runner
  shows := by
    rw [hcursor, htable]
    exact h.shows
  waits := by
    intro e hmem
    change m.cursor b e.aggregateId + 1 < e.sequenceNumber
    rw [hcursor]
    exact h.waits e hmem
  parked := h.parked

theorem Follows.still {a b : ω} (h : m.Follows log r a) (hstill : m.observation.Still a b) :
    m.Follows log r b := h.congr hstill.cursor hstill.model

theorem shows_takes (hlog : log.Lawful) {a b : ω} {e : Envelope Json} (hmem : e ∈ log.envelopes)
    (htakes : m.observation.Takes (profileProjection m.rows) a e b)
    (h : log.Shows (m.cursor a) (m.table a)) : log.Shows (m.cursor b) (m.table b) := by
  obtain ⟨stored, hstored, rfl⟩ := List.mem_map.mp hmem
  have hnext : stored.sequenceNumber = m.cursor a stored.aggregateId + 1 := htakes.next
  have hmodel := htakes.model
  rw [if_pos (hlog.handles hstored m.rows)] at hmodel
  obtain ⟨e, hdecode, htable⟩ := hmodel
  have hcursor : m.cursor b =
      Function.update (m.cursor a) stored.aggregateId stored.sequenceNumber := htakes.cursor
  have htable' : m.table b = (m.table a).absorb e := htable
  rw [hcursor, htable']
  exact h.absorb hlog hstored hnext hdecode

theorem shows_consumes (hlog : log.Lawful) {a b : ω} {es : List (Envelope Json)}
    (hmem : ∀ e ∈ es, e ∈ log.envelopes)
    (hes : m.observation.Consumes (profileProjection m.rows) a es b)
    (h : log.Shows (m.cursor a) (m.table a)) : log.Shows (m.cursor b) (m.table b) := by
  refine hes.preserves (fun a b hstill => shows_still hstill) ?_ h
  intro a e b he htakes
  exact shows_takes hlog (hmem e he) htakes

/-- Whatever comes of submitting an envelope of the log, the runner keeps following it. -/
theorem Follows.apply (hlog : log.Lawful) (h : m.Follows log r w) {e : Envelope Json}
    (hmem : e ∈ log.envelopes) : m.Follows log (r.apply e w).1.2 (r.apply e w).2 := by
  have hwaits := Runner.waits_apply h.lawful (e := e) h.waits
  have hcases := Runner.apply_cases h.lawful e w
  generalize r.apply e w = step at hwaits hcases ⊢
  cases hcases with
  | unnumbered => exact h
  | duplicate _ still => exact h.still still
  | refused _ _ _ still => exact h.still still
  | parked _ still =>
    refine ⟨h.withBacklog _, shows_still still h.shows, hwaits, ?_⟩
    intro e' hmem'
    rcases Backlog.mem_park.mp hmem' with rfl | ⟨hmem', _⟩
    · exact hmem
    · exact h.parked e' hmem'
  | applied es stalled consumes hparked _ =>
    have hes : ∀ e' ∈ e :: es, e' ∈ log.envelopes := by
      rw [List.forall_mem_cons]
      exact ⟨hmem, fun e' he' => h.parked e' (hparked e' he').2⟩
    rw [h.projection_eq] at consumes
    refine ⟨h.withBacklog _, shows_consumes hlog hes consumes h.shows, hwaits, ?_⟩
    intro e' hmem'
    exact h.parked e' (Backlog.mem_prune.mp hmem').1

/-- The envelopes that an outcome hands back are of the log. -/
theorem Follows.stalled (h : m.Follows log r w) {e : Envelope Json} {progress : Progress}
    (hresult : (r.apply e w).1.1 = .ok (.applied progress)) :
    ∀ s ∈ progress.stalled, s.envelope ∈ log.envelopes := by
  have hcases := Runner.apply_cases h.lawful e w
  generalize r.apply e w = step at hcases hresult
  cases hcases with
  | unnumbered => cases hresult
  | duplicate => cases hresult
  | refused => cases hresult
  | parked => cases hresult
  | applied es stalled consumes hparked stalls =>
    cases hresult
    exact fun s hs => h.parked _ (stalls.place (List.mem_map_of_mem hs)).1

theorem Follows.reset (h : m.Follows log r w) :
    m.Follows log (r.reset w).1.2 (r.reset w).2 := by
  have hreset := h.lawful.reset w
  have hcursor := h.lawful.cursor_clear
  have hmodel := h.lawful.model_clear
  rw [Runner.reset, bind_apply]
  generalize r.projection.reset w = step at hreset
  obtain ⟨_ | _, w'⟩ := step
  · exact h.still hreset
  · refine ⟨h.withBacklog _, ?_, fun _ hmem => absurd hmem List.not_mem_nil,
      fun _ hmem => absurd hmem List.not_mem_nil⟩
    have hempty : m.table (r.cursors.clear r.name w').2 = .empty := (hmodel w').trans hreset.1
    have hzero : m.cursor (r.cursors.clear r.name w').2 = fun _ => 0 := hcursor w'
    change log.Shows (m.cursor (r.cursors.clear r.name w').2) (m.table (r.cursors.clear r.name w').2)
    rw [hempty, hzero]
    exact .start log

theorem Follows.replay (hlog : log.Lawful) (h : m.Follows log r w) {es : List (Envelope Json)}
    (hmem : ∀ e ∈ es, e ∈ log.envelopes) (count : Nat) :
    m.Follows log (r.replay count es w).1.2 (r.replay count es w).2 := by
  induction es generalizing r w count with
  | nil => exact h
  | cons e es ih =>
    rw [List.forall_mem_cons] at hmem
    have hfirst := h.apply hlog hmem.1
    rw [Runner.replay, bind_apply]
    generalize r.apply e w = step at hfirst
    obtain ⟨⟨_ | (progress | _ | _), r'⟩, w'⟩ := step
    · exact hfirst
    · obtain ⟨applied, _ | ⟨s, stalled⟩⟩ := progress
      · exact ih hfirst hmem.2 _
      · exact hfirst
    · exact ih hfirst hmem.2 _
    · exact ih hfirst hmem.2 _

theorem Follows.rebuild (hlog : log.Lawful) (h : m.Follows log r w) {es : List (Envelope Json)}
    (hmem : ∀ e ∈ es, e ∈ log.envelopes) :
    m.Follows log (r.rebuild es w).1.2 (r.rebuild es w).2 := by
  have hreset := h.reset
  rw [Runner.rebuild, bind_apply]
  generalize r.reset w = step at hreset
  obtain ⟨⟨_ | _, r'⟩, w'⟩ := step
  · exact hreset
  · have hreplay := hreset.replay hlog hmem 0
    dsimp only
    rw [bind_apply]
    generalize r'.replay 0 es w' = step at hreplay
    obtain ⟨⟨_ | count, r''⟩, w''⟩ := step
    · exact hreplay
    · dsimp only
      cases r''.backlog.aggregates with
      | nil => exact hreplay
      | cons id ids =>
        dsimp only
        rw [bind_apply, Runner.cursor_apply hreplay.lawful]
        exact hreplay

variable (m) (log)

/-- A registry with one runner that follows a log, and only envelopes of the log queued. -/
structure Tracked (reg : Registry ω) (w : ω) : Prop where
  runners : ∃ r, reg.runners = [r] ∧ m.Follows log r w
  queue : reg.outbox.Queues (· ∈ log.envelopes)

variable {m} {log}

theorem Tracked.start (hcursor : m.cursor w = fun _ => 0) (htable : m.table w = .empty)
    (bus : Bus ProjectionUpdated) : m.Tracked log ⟨[m.runner], ⟨[], bus⟩⟩ w where
  runners := ⟨m.runner, rfl, .start hcursor htable⟩
  queue := fun _ hmem => absurd hmem List.not_mem_nil

/-- Every operation of a registry keeps its runner following the log. -/
theorem invariant (hlog : log.Lawful) :
    Registry.Invariant (· ∈ log.envelopes) (m.Follows log) where
  note record _ w h := h.still (m.tracks.still.note record w)
  apply h _ hmem := ⟨h.apply hlog hmem, fun _ => h.stalled⟩
  retry h := by
    rw [Runner.retryParked_of_waits h.lawful h.waits]
    exact ⟨h, fun _ hs => absurd hs List.not_mem_nil⟩

theorem tracked_iff {reg : Registry ω} :
    m.Tracked log reg w ↔ Registry.Keeps (· ∈ log.envelopes) (m.Follows log) reg w :=
  ⟨fun h => ⟨h.runners, h.queue⟩, fun h => ⟨h.runners, h.queue⟩⟩

theorem Tracked.dispatch (hlog : log.Lawful) {reg : Registry ω} (h : m.Tracked log reg w)
    {e : Envelope Json} (hmem : e ∈ log.envelopes) :
    m.Tracked log (reg.dispatch e w).1.2 (reg.dispatch e w).2 :=
  tracked_iff.mpr ((tracked_iff.mp h).dispatch (invariant hlog) hmem)

theorem Tracked.dispatchAll (hlog : log.Lawful) {reg : Registry ω} (h : m.Tracked log reg w)
    {es : List (Envelope Json)} (hmem : ∀ e ∈ es, e ∈ log.envelopes) :
    m.Tracked log (reg.dispatchAll es w).1 (reg.dispatchAll es w).2 :=
  tracked_iff.mpr ((tracked_iff.mp h).dispatchAll (invariant hlog) hmem)

theorem Tracked.drainParked {reg : Registry ω} (h : m.Tracked log reg w) :
    reg.drainParked w = (reg, w) := by
  obtain ⟨⟨r, hr, hfollows⟩, _⟩ := h
  obtain ⟨runners, o⟩ := reg
  subst hr
  simp only [Registry.drainParked, Registry.drainRunners, bind_apply,
    Runner.retryParked_of_waits hfollows.lawful hfollows.waits, Outbox.settle_none, pure_apply]

theorem Tracked.congr {reg : Registry ω} {a b : ω} (h : m.Tracked log reg a)
    (hcursor : m.cursor b = m.cursor a) (htable : m.table b = m.table a) : m.Tracked log reg b where
  runners := by
    obtain ⟨r, hr, hfollows⟩ := h.runners
    exact ⟨r, hr, hfollows.congr hcursor htable⟩
  queue := h.queue

theorem Tracked.still {reg : Registry ω} {a b : ω} (h : m.Tracked log reg a)
    (hstill : m.observation.Still a b) : m.Tracked log reg b :=
  h.congr hstill.cursor hstill.model

theorem Tracked.extend (hlog : log.Lawful) {reg : Registry ω} (h : m.Tracked log reg w)
    {id : AggregateId} {command : ProfileCommand} {committed : List StoredEvent}
    (hcarries : CarriesOut log id command committed) :
    m.Tracked (log.extend id committed) reg w := by
  obtain ⟨⟨r, hr, hfollows⟩, hqueue⟩ := h
  have hcommits : ∀ stored ∈ log.commits, stored ∈ (log.extend id committed).commits := by
    rw [EventLog.commits_extend]
    exact fun _ hstored => List.mem_append_left _ hstored
  have hmem := EventLog.envelopes_of_commits hcommits
  refine ⟨⟨r, hr, ?_⟩, fun f hf => hmem _ (hqueue f hf)⟩
  exact ⟨hfollows.runner, hfollows.shows.extend hlog hcarries, hfollows.waits,
    fun e he => hmem e (hfollows.parked e he)⟩

theorem Tracked.retryFailed (hlog : log.Lawful) {reg : Registry ω} (h : m.Tracked log reg w) :
    m.Tracked log (reg.retryFailed w).1.2 (reg.retryFailed w).2 :=
  tracked_iff.mpr ((tracked_iff.mp h).retryFailed (invariant hlog))

end RowModel

end IdentityLedger
