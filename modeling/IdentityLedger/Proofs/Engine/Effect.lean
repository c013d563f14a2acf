import IdentityLedger.Proofs.CommandHandler.Coherence
import IdentityLedger.Proofs.Engine.SingleActive

/-!
# What one command does to an engine

A rejected command leaves no trace in the log, the rows and the registry. An accepted one
extends the stream of its target by what it has committed and, if that activates the target,
the stream of each sibling that was active by the one event with which it steps down. What
else there is in the log and among the rows stays as it is.
-/
namespace IdentityLedger

namespace EventLog
variable {log after : EventLog} {id : AggregateId} {added : List StoredEvent}

/-- Some of the events activate a profile at a time. -/
def Activates (events : List StoredEvent) (activation : Activation) : Prop :=
  ∃ stored ∈ events, ∃ verifiedAt, stored.profileEvent? =
    some ⟨activation.profileId, activation.activatedAt, .activated verifiedAt⟩

theorem Consistent.stream_of_commits (h : log.Consistent) (hafter : after.Consistent)
    (hcommits : after.commits = log.commits ++ added) (id : AggregateId) :
    after.stream id = log.stream id ++ added.filter fun e => e.aggregateId = id := by
  rw [hafter.stream_eq, h.stream_eq, hcommits, List.filter_append]

theorem activeFor_of_stream_eq {userId : UserId} (h : after.stream id = log.stream id) :
    after.ActiveFor userId id ↔ log.ActiveFor userId id := by
  rw [ActiveFor, ActiveFor, history, history, h]

theorem filter_aggregateId_eq_nil (hnot : id ∉ added.map StoredEvent.aggregateId) :
    added.filter (fun e => e.aggregateId = id) = [] := by
  rw [List.filter_eq_nil_iff]
  intro other hother
  rw [decide_eq_true_eq]
  exact fun hsame => hnot (hsame ▸ List.mem_map_of_mem hother)

theorem filter_aggregateId_eq_self (hown : ∀ stored ∈ added, stored.aggregateId = id) :
    added.filter (fun e => e.aggregateId = id) = added := by
  rw [List.filter_eq_self]
  intro stored hmem
  rw [hown stored hmem, decide_eq_true_eq]

theorem Lawful.replayStream_iff (h : log.Lawful) {p : Profile} :
    Repository.replayStream id (log.stream id) = .ok p ↔
      log.stream id ≠ [] ∧ p = .load id (log.history id) := by
  constructor
  · intro hreplay
    have hstream : log.stream id ≠ [] := by
      intro hnil
      rw [hnil] at hreplay
      contradiction
    rw [h.replayStream_eq hstream, Except.ok.injEq] at hreplay
    exact ⟨hstream, hreplay.symm⟩
  · rintro ⟨hstream, rfl⟩
    exact h.replayStream_eq hstream

theorem Lawful.aggregateId_eq (h : log.Lawful) {command : ProfileCommand}
    (hcarries : CarriesOut log id command added) : ∀ stored ∈ added, stored.aggregateId = id := by
  obtain ⟨_, _, _, hholds⟩ := h.decided hcarries
  intro stored hmem
  obtain ⟨_, _, hstored⟩ := exists_of_mem_right hholds hmem
  exact hstored.aggregateId_eq

theorem Lawful.stepsDown (h : log.Lawful) {profileId supersededBy : AggregateId} {time : Timestamp}
    (htime : ¬ time.IsStray)
    (hcarries : CarriesOut log id (.act profileId (.supersede supersededBy) time) added) :
    id = profileId ∧ ∃ stored, added = [stored] ∧
      stored.Records ⟨profileId, time, .superseded supersededBy⟩ := by
  obtain ⟨events, hdecided, _, hkeeps⟩ := h.decided_keeps hcarries
  have hid : id = profileId := (h.fits id).id_replay.symm.trans (Profile.id_of_decide hdecided)
  subst hid
  rw [Profile.eq_of_decide_supersede hdecided] at hkeeps
  obtain ⟨stored, _, hkeep, hrest, rfl⟩ := List.forall₂_cons_left_iff.mp hkeeps
  rw [List.forall₂_nil_left_iff.mp hrest]
  have hself : (Profile.load id (log.history id)).id = id := (h.fits id).id_replay
  rw [Profile.event, hself] at hkeep
  exact ⟨rfl, stored, rfl, hkeep.records_of_times (by simpa [ProfileEvent.times, ProfileChange.times])⟩

theorem Lawful.decided_of_activates (h : log.Lawful) {command : ProfileCommand}
    (hcarries : CarriesOut log id command added) {activation : Activation}
    (hactivates : Activates added activation) :
    log.stream id ≠ [] ∧ ¬ activation.activatedAt.IsStray := by
  obtain ⟨events, hdecided, _, hholds⟩ := h.decided hcarries
  obtain ⟨stored, hmem, verifiedAt, hevent⟩ := hactivates
  obtain ⟨e, he, hstored⟩ := exists_of_mem_right hholds hmem
  rw [hstored.profileEvent?_eq] at hevent
  cases hevent
  refine ⟨stream_ne_nil_of_isCreated (Profile.isCreated_of_activates hdecided ⟨_, he, rfl⟩), ?_⟩
  exact ProfileEvent.asRead_eq_self_iff.mp hstored.asRead_eq _ List.mem_cons_self

theorem Lawful.userId_eq (hafter : after.Lawful) (h : log.Lawful) (hstream : log.stream id ≠ [])
    (hextends : after.stream id = log.stream id ++ added) :
    (Profile.load id (after.history id)).userId = (Profile.load id (log.history id)).userId := by
  have hfits := hafter.fits id
  rw [history, hextends, List.filterMap_append, ← history] at hfits ⊢
  rw [Profile.load, Profile.replay_append]
  exact Profile.userId_replay (h.isCreated hstream) (Profile.fits_append.mp hfits).2

end EventLog

namespace SingleActiveProfile
variable {log : EventLog} {id : AggregateId} {command : ProfileCommand} {committed : List StoredEvent}

theorem mem_activations {events : List ProfileEvent}
    (hholds : List.Forall₂ (StoredEvent.Holds id) events committed) {activation : Activation} :
    activation ∈ activations committed ↔ EventLog.Activates committed activation := by
  rw [activations, List.mem_filterMap]
  refine exists_congr fun stored => and_congr_right fun hmem => ?_
  obtain ⟨⟨profileId, time, change⟩, _, hstored⟩ := exists_of_mem_right hholds hmem
  rw [activation?_of_holds hstored, hstored.profileEvent?_eq]
  obtain ⟨activated, activatedAt⟩ := activation
  cases change <;> simp [ProfileChange.isActivation]

/-- A command activates its target or nothing. -/
theorem activations_of_carriesOut (hlog : log.Lawful)
    (hcarries : CarriesOut log id command committed) :
    (activations committed = [] ∧ ∀ activation, ¬EventLog.Activates committed activation) ∨
      ∃ time, activations committed = [⟨id, time⟩] ∧
        ∀ activation, EventLog.Activates committed activation ↔ activation = ⟨id, time⟩ := by
  have hactivated := hlog.activated hcarries
  obtain ⟨events, hdecided, _, hholds⟩ := hlog.decided hcarries
  have hmem (activation : Activation) : activation ∈ activations committed ↔
      EventLog.Activates committed activation := mem_activations hholds
  have honce := Profile.filter_isActivation_of_yields (Profile.yields_decide hdecided)
  have hall := activations_of_holds hholds
  rcases honce with hnone | ⟨e, hone⟩
  · rw [hnone] at hall
    rw [hall] at hmem
    exact .inl ⟨hall, fun activation h => List.not_mem_nil ((hmem activation).mpr h)⟩
  · rw [hone] at hall
    rw [hall] at hmem hactivated
    have hid : e.profileId = id := hactivated _ (List.mem_singleton.mpr rfl)
    rw [List.map_singleton, hid] at hall hmem
    exact .inr ⟨e.occurredAt, hall, fun activation => (hmem activation).symm.trans List.mem_singleton⟩

end SingleActiveProfile

namespace Engine
variable {reg : Registry Memory} {m : Memory} (retry : RetryPolicy)

/-- An active profile that is asked to step down for another does so by one event. -/
theorem Current.handleAlone_stepsDown (h : Current reg m) {userId : UserId} {id : AggregateId}
    (hactive : m.events.ActiveFor userId id) {supersededBy : AggregateId} (hother : supersededBy ≠ id)
    {time : Timestamp} (htime : ¬ time.IsStray) : ∃ stored, stored.Records ⟨id, time, .superseded supersededBy⟩ ∧
      ((synchronous retry).handleAlone reg (.act id (.supersede supersededBy) time) m).2.events =
        m.events.extend id [stored] := by
  obtain ⟨outcome, hhandle⟩ := h.handleAlone_active retry hactive hother time
  have hsettles := (h.settles retry (.act id (.supersede supersededBy) time)).2
  generalize (synchronous retry).handleAlone reg _ m = step at hhandle hsettles
  cases hsettles with
  | rejected => contradiction
  | accepted _ _ committed hcarries hevents =>
    obtain ⟨rfl, stored, rfl, hrecords⟩ := h.lawful.stepsDown htime hcarries
    exact ⟨stored, hrecords, hevents⟩

/-- Events with which siblings step down for an activation, one each. -/
structure StepDowns (activation : Activation) (ids : List AggregateId) (steps : List StoredEvent) :
    Prop where
  aggregates : steps.map StoredEvent.aggregateId = ids
  records : ∀ stored ∈ steps, stored.Records
    ⟨stored.aggregateId, activation.activatedAt, .superseded activation.profileId⟩

theorem StepDowns.cons {activation : Activation} {ids : List AggregateId} {steps : List StoredEvent}
    (h : StepDowns activation ids steps) {id : AggregateId} {stored : StoredEvent}
    (hrecords : stored.Records ⟨id, activation.activatedAt, .superseded activation.profileId⟩) :
    StepDowns activation (id :: ids) (stored :: steps) where
  aggregates := by rw [List.map_cons, h.aggregates, ← hrecords.aggregateId]
  records := by
    rw [List.forall_mem_cons]
    exact ⟨hrecords.aggregateId ▸ hrecords, h.records⟩

/-- Active siblings that are asked to step down one after another all do, by one event each. -/
theorem Current.supersedeEach_steps (h : Current reg m) {activation : Activation}
    (htime : ¬ activation.activatedAt.IsStray) {userId : UserId} {ids : List AggregateId}
    (hdistinct : ids.Nodup)
    (hsiblings : ∀ id ∈ ids, id ≠ activation.profileId ∧ m.events.ActiveFor userId id) :
    ∃ steps, StepDowns activation ids steps ∧
      ((synchronous retry).supersedeEach activation reg (ids.map fun id =>
        .act id (.supersede activation.profileId) activation.activatedAt) m).2.events.commits =
          m.events.commits ++ steps := by
  induction ids generalizing reg m with
  | nil => exact ⟨[], ⟨rfl, fun _ hmem => absurd hmem List.not_mem_nil⟩, (List.append_nil _).symm⟩
  | cons id ids ih =>
    rw [List.forall_mem_cons] at hsiblings
    obtain ⟨⟨hother, hactive⟩, hsiblings⟩ := hsiblings
    rw [List.nodup_cons] at hdistinct
    let command : ProfileCommand := .act id (.supersede activation.profileId) activation.activatedAt
    obtain ⟨stored, hrecords, hevents⟩ :=
      h.handleAlone_stepsDown retry hactive hother.symm htime
    obtain ⟨level, message, fields, hcons⟩ := (synchronous retry).supersedeEach_cons activation reg
      command (ids.map fun id => .act id (.supersede activation.profileId) activation.activatedAt) m
    have hnext := (h.handleAlone retry command).report level message fields
    obtain ⟨steps, hsteps, hcommits⟩ := ih hnext hdistinct.2 fun other hmem => by
      -- a sibling that is asked later is as active as before
      refine ⟨(hsiblings other hmem).1, ?_⟩
      have hne : other ≠ id := fun hsame => hdistinct.1 (hsame ▸ hmem)
      have hstream : (m.events.extend id [stored]).stream other = m.events.stream other := by
        rw [EventLog.stream_extend, if_neg hne]
      exact hevents ▸ (EventLog.activeFor_of_stream_eq hstream).mpr (hsiblings other hmem).2
    refine ⟨stored :: steps, hsteps.cons hrecords, ?_⟩
    rw [List.map_cons, hcons, hcommits]
    change ((synchronous retry).handleAlone reg command m).2.events.commits ++ steps = _
    rw [hevents, EventLog.commits_extend, List.append_assoc, List.singleton_append]

theorem Current.react_eq (h : Current reg m) (activation : Activation) (userId : UserId) :
    ∃ ids : List AggregateId, ids.Nodup ∧
      (∀ id, id ∈ ids ↔ id ≠ activation.profileId ∧ m.events.ActiveFor userId id) ∧
      SingleActiveProfile.react activation userId m.rows.values = ids.map fun id =>
        .act id (.supersede activation.profileId) activation.activatedAt := by
  let siblings := m.rows.values.filter (SingleActiveProfile.isSibling activation userId)
  refine ⟨siblings.map ProfileRow.profileId, ?_, fun id => ?_, by rw [List.map_map]; rfl⟩
  · have hordered : siblings.Pairwise fun a b => a.profileId < b.profileId :=
      h.values.1.sublist List.filter_sublist
    refine List.pairwise_map.mpr (hordered.imp fun {a b} hlt hsame => ?_)
    rw [hsame] at hlt
    exact irrefl_of (· < ·) b.profileId hlt
  · simp only [siblings, List.mem_map, List.mem_filter, SingleActiveProfile.isSibling,
      decide_eq_true_eq]
    constructor
    · rintro ⟨row, ⟨hrow, rfl, hactive, hne⟩, rfl⟩
      exact ⟨hne, h.activeFor_of_row hrow hactive⟩
    · rintro ⟨hne, hactive⟩
      obtain ⟨row, hrow, rfl, hsays⟩ := h.exists_row hactive
      exact ⟨row, ⟨hrow, hsays.1, hsays.2, hne⟩, rfl⟩

theorem Current.supersedeSiblings_steps (h : Current reg m) (activation : Activation)
    (htime : ¬ activation.activatedAt.IsStray) (hstream : m.events.stream activation.profileId ≠ []) : ∃ userId ids steps,
      (Profile.load activation.profileId (m.events.history activation.profileId)).userId =
        some userId ∧ ids.Nodup ∧
      (∀ id, id ∈ ids ↔ id ≠ activation.profileId ∧ m.events.ActiveFor userId id) ∧
      StepDowns activation ids steps ∧
      ((synchronous retry).supersedeSiblings reg activation m).2.events.commits =
        m.events.commits ++ steps := by
  have hload : Repository.load (synchronous retry).handler.store activation.profileId m =
    (Repository.replayStream activation.profileId (m.events.stream activation.profileId), m) := rfl
  obtain ⟨userId, huser⟩ := h.lawful.exists_userId hstream
  obtain ⟨ids, hdistinct, hmem, hreact⟩ := h.react_eq activation userId
  obtain ⟨steps, hsteps, hcommits⟩ := h.supersedeEach_steps retry htime hdistinct
    fun id hid => (hmem id).mp hid
  refine ⟨userId, ids, steps, huser, hdistinct, hmem, hsteps, ?_⟩
  rw [Engine.supersedeSiblings, bind_apply, hload, h.lawful.replayStream_eq hstream]
  dsimp only
  rw [huser]
  change ((synchronous retry).supersedeEach activation reg
    (SingleActiveProfile.react activation userId m.rows.values) m).2.events.commits = _
  rw [hreact, hcommits]

/-- The loaded profile is active and of the user. -/
def Active (e : Engine Memory) (m : Memory) (userId : UserId) (id : AggregateId) : Prop :=
  ∃ p, (Repository.load e.handler.store id m).1 = .ok p ∧ p.active = true ∧ p.userId = some userId

/-- The stream and the row of a profile are as they were. -/
structure Untouched (e : Engine Memory) (before after : Memory) (id : AggregateId) : Prop where
  stream : after.events.stream id = before.events.stream id
  row : (e.profile id after).1 = (e.profile id before).1

/-- The events of an engine's reaction to an activation: every other profile that was active
for the user of the activated one steps down, by one event each. -/
structure Reaction (e : Engine Memory) (before : Memory) (activation : Activation)
    (steps : List StoredEvent) : Prop where
  distinct : (steps.map StoredEvent.aggregateId).Nodup
  siblings : ∃ p userId, (Repository.load e.handler.store activation.profileId before).1 = .ok p ∧
    p.userId = some userId ∧ ∀ id, id ∈ steps.map StoredEvent.aggregateId ↔
      id ≠ activation.profileId ∧ e.Active before userId id
  records : ∀ stored ∈ steps, stored.Records
    ⟨stored.aggregateId, activation.activatedAt, .superseded activation.profileId⟩

/-- What an accepted command adds: its batch, and then the steps of the reaction to it. -/
structure Adds (e : Engine Memory) (before after : Memory) (outcome : CommandOutcome)
    (steps : List StoredEvent) : Prop where
  commits : after.events.commits = before.events.commits ++ (outcome.committed ++ steps)
  target : after.events.stream outcome.aggregateId =
    before.events.stream outcome.aggregateId ++ outcome.committed
  siblings : ∀ stored ∈ steps, after.events.stream stored.aggregateId =
    before.events.stream stored.aggregateId ++ [stored]
  reaction : ∀ activation, EventLog.Activates outcome.committed activation →
    activation.profileId = outcome.aggregateId ∧ Reaction e before activation steps
  idle : (∀ activation, ¬EventLog.Activates outcome.committed activation) → steps = []
  others : ∀ id, id ≠ outcome.aggregateId → id ∉ steps.map StoredEvent.aggregateId →
    e.Untouched before after id
  strangers : ∀ id p q, id ≠ outcome.aggregateId →
    (Repository.load e.handler.store id before).1 = .ok p →
    (Repository.load e.handler.store outcome.aggregateId after).1 = .ok q →
      p.userId ≠ q.userId → e.Untouched before after id

/-- What one command does to an engine. -/
inductive Effect (e : Engine Memory) (reg : Registry Memory) (before : Memory)
    (command : ProfileCommand) :
    (Except DispatchError CommandOutcome × Registry Memory) × Memory → Prop
  | rejected (error : DispatchError) {after : Memory} (hquiet : Memory.Quiet before after) :
      Effect e reg before command ((.error error, reg), after)
  | accepted (outcome : CommandOutcome) (steps : List StoredEvent) {reg' : Registry Memory}
      {after : Memory}
      (htarget : ∀ id, command.target.aggregateId = some id → id = outcome.aggregateId)
      (hadds : Adds e before after outcome steps) :
      Effect e reg before command ((.ok outcome, reg'), after)

theorem Current.active_iff (h : Current reg m) {userId : UserId} {id : AggregateId} :
    (synchronous retry).Active m userId id ↔ m.events.ActiveFor userId id := by
  have hload (p : Profile) : (Repository.load (synchronous retry).handler.store id m).1 = .ok p ↔
      m.events.stream id ≠ [] ∧ p = .load id (m.events.history id) := h.lawful.replayStream_iff
  constructor
  · rintro ⟨p, hp, hactive, huser⟩
    obtain ⟨_, rfl⟩ := (hload p).mp hp
    exact ⟨hactive, Profile.live_of_active (h.lawful.fits id) hactive, huser⟩
  · intro hactive
    have hstream := h.lawful.stream_ne_nil hactive
    exact ⟨_, (hload _).mpr ⟨hstream, rfl⟩, hactive.active, hactive.user⟩

theorem Current.untouched (h : Current reg m) {reg' : Registry Memory} {m' : Memory}
    (h' : Current reg' m') {id : AggregateId} (hstream : m'.events.stream id = m.events.stream id) :
    (synchronous retry).Untouched m m' id where
  stream := hstream
  row := by
    rw [h'.profile_eq, h.profile_eq, EventLog.history, EventLog.history, hstream]

theorem Current.sibling (h : Current reg m) {activation : Activation} {steps : List StoredEvent}
    (hreaction : Reaction (synchronous retry) m activation steps) {id : AggregateId}
    (hmem : id ∈ steps.map StoredEvent.aggregateId) :
    id ≠ activation.profileId ∧ m.events.stream activation.profileId ≠ [] ∧
      ∃ userId, m.events.ActiveFor userId id ∧
        (Profile.load activation.profileId (m.events.history activation.profileId)).userId =
          some userId := by
  obtain ⟨p, userId, hload, huser, hsiblings⟩ := hreaction.siblings
  obtain ⟨hexists, rfl⟩ := h.lawful.replayStream_iff.mp hload
  obtain ⟨hne, hactive⟩ := (hsiblings id).mp hmem
  exact ⟨hne, hexists, userId, (h.active_iff retry).mp hactive, huser⟩

/-- What is known of a batch and of the reaction to it says all that a command adds. -/
theorem Current.adds (h : Current reg m) {reg' : Registry Memory} {m' : Memory}
    (h' : Current reg' m') {id : AggregateId} {command : ProfileCommand}
    {committed steps : List StoredEvent} (hcarries : CarriesOut m.events id command committed)
    (attempts : Nat) (hcommits : m'.events.commits = m.events.commits ++ (committed ++ steps))
    (hreaction : ∀ activation, EventLog.Activates committed activation →
      activation.profileId = id ∧ Reaction (synchronous retry) m activation steps)
    (hidle : (∀ activation, ¬EventLog.Activates committed activation) → steps = []) :
    Adds (synchronous retry) m m' (CommandHandler.outcome id attempts committed) steps := by
  have hown := h.lawful.aggregateId_eq hcarries
  have hstream := h.lawful.consistent.stream_of_commits h'.lawful.consistent hcommits
  -- no step is of the target, and no two are of one sibling
  obtain ⟨hdistinct, hsiblings⟩ : (steps.map StoredEvent.aggregateId).Nodup ∧
      ∀ other ∈ steps.map StoredEvent.aggregateId, other ≠ id ∧ m.events.stream id ≠ [] ∧
        ∃ userId, m.events.ActiveFor userId other ∧
          (Profile.load id (m.events.history id)).userId = some userId := by
    by_cases hactivates : ∃ activation, EventLog.Activates committed activation
    · obtain ⟨activation, hactivates⟩ := hactivates
      obtain ⟨rfl, hsteps⟩ := hreaction activation hactivates
      exact ⟨hsteps.distinct, fun other => h.sibling retry hsteps⟩
    · rw [hidle fun activation h => hactivates ⟨activation, h⟩]
      exact ⟨List.nodup_nil, fun other hother => absurd hother List.not_mem_nil⟩
  have htarget : m'.events.stream id = m.events.stream id ++ committed := by
    have hnone : id ∉ steps.map StoredEvent.aggregateId := fun hmem => (hsiblings id hmem).1 rfl
    rw [hstream, List.filter_append, EventLog.filter_aggregateId_eq_self hown,
      EventLog.filter_aggregateId_eq_nil hnone, List.append_nil]
  have hbatch : ∀ other, other ≠ id → other ∉ committed.map StoredEvent.aggregateId := by
    intro other hne hmem
    obtain ⟨stored, hstored, rfl⟩ := List.mem_map.mp hmem
    exact hne (hown stored hstored)
  have hothers : ∀ other, other ≠ id → other ∉ steps.map StoredEvent.aggregateId →
      (synchronous retry).Untouched m m' other := by
    intro other hne hnot
    apply h.untouched retry h'
    rw [hstream, List.filter_append, EventLog.filter_aggregateId_eq_nil (hbatch other hne),
      EventLog.filter_aggregateId_eq_nil hnot, List.append_nil, List.append_nil]
  constructor
  · exact hcommits
  · exact htarget
  · intro stored hmem
    have hne := (hsiblings _ (List.mem_map_of_mem hmem)).1
    rw [hstream, List.filter_append, EventLog.filter_aggregateId_eq_nil (hbatch _ hne),
      List.nil_append, filter_key_eq hdistinct hmem]
  · exact hreaction
  · exact hidle
  · exact hothers
  · intro other p q hne hp hq husers
    refine hothers other hne fun hmem => husers ?_
    obtain ⟨_, hexists, userId, hactive, huser⟩ := hsiblings other hmem
    obtain ⟨_, rfl⟩ := h.lawful.replayStream_iff.mp hp
    obtain ⟨_, rfl⟩ := h'.lawful.replayStream_iff.mp hq
    exact hactive.user.trans
      (huser.symm.trans (h'.lawful.userId_eq h.lawful hexists htarget).symm)

/-- The engine reacts to an activation that has just been committed: the siblings that it
finds are those that were active before. -/
theorem Current.reaction (h : Current reg m) {reg₁ : Registry Memory} {m₁ : Memory}
    (h₁ : Current reg₁ m₁) {id : AggregateId} {command : ProfileCommand}
    {committed : List StoredEvent} (hcarries : CarriesOut m.events id command committed)
    (hevents : m₁.events = m.events.extend id committed) {time : Timestamp}
    (hactivates : EventLog.Activates committed ⟨id, time⟩) : ∃ steps,
      Reaction (synchronous retry) m ⟨id, time⟩ steps ∧
        ((synchronous retry).supersedeSiblings reg₁ ⟨id, time⟩ m₁).2.events.commits =
          m₁.events.commits ++ steps := by
  obtain ⟨hexists, htime⟩ := h.lawful.decided_of_activates hcarries hactivates
  have hextends : m₁.events.stream id = m.events.stream id ++ committed := by
    rw [hevents, EventLog.stream_extend, if_pos rfl]
  have hexists₁ : m₁.events.stream id ≠ [] := by
    rw [hextends]
    exact fun hnil => hexists (List.append_eq_nil_iff.mp hnil).1
  obtain ⟨userId, ids, steps, huser, hdistinct, hsiblings, hsteps, hcommits⟩ :=
    h₁.supersedeSiblings_steps retry ⟨id, time⟩ htime hexists₁
  rw [h₁.lawful.userId_eq h.lawful hexists hextends] at huser
  refine ⟨steps, ⟨hsteps.aggregates ▸ hdistinct, ?_, hsteps.records⟩, hcommits⟩
  refine ⟨_, userId, h.lawful.replayStream_eq hexists, huser, fun other => ?_⟩
  rw [hsteps.aggregates, hsiblings]
  refine and_congr_right fun hne => ?_
  have hstill : m₁.events.stream other = m.events.stream other := by
    rw [hevents, EventLog.stream_extend, if_neg hne]
  rw [h.active_iff, EventLog.activeFor_of_stream_eq hstill]

/-- Every command has its effect, and nothing else. -/
theorem Current.effect_handle (h : Current reg m) (command : ProfileCommand) :
    Effect (synchronous retry) reg m command ((synchronous retry).handle reg command m) := by
  have hlast := h.handle retry command
  rw [Engine.handle, bind_apply] at hlast ⊢
  rcases h.handleAlone_cases retry command with
    ⟨error, m₁, hhandle, hquiet⟩ | ⟨id, attempts, committed, reg₁, m₁, hhandle, hcarries, h₁, hevents⟩
  · rw [hhandle]
    exact .rejected error hquiet
  rw [hhandle] at hlast ⊢
  change Current ((synchronous retry).supersedeAll reg₁
      (SingleActiveProfile.activations committed) m₁).1
    ((synchronous retry).supersedeAll reg₁ (SingleActiveProfile.activations committed) m₁).2 at hlast
  change Effect _ _ _ _ ((.ok (CommandHandler.outcome id attempts committed),
      ((synchronous retry).supersedeAll reg₁ (SingleActiveProfile.activations committed) m₁).1),
    ((synchronous retry).supersedeAll reg₁ (SingleActiveProfile.activations committed) m₁).2)
  have htarget : ∀ target, command.target.aggregateId = some target → target = id := by
    obtain ⟨events, hdecided, _⟩ := h.lawful.decided_keeps hcarries
    intro target hnamed
    exact (Profile.target_of_decide hdecided target hnamed).trans (h.lawful.fits id).id_replay
  rcases SingleActiveProfile.activations_of_carriesOut h.lawful hcarries with
    ⟨hnil, hnone⟩ | ⟨time, hone, honly⟩
  · rw [hnil] at hlast ⊢
    have hcommits : m₁.events.commits = m.events.commits ++ (committed ++ []) := by
      rw [hevents, EventLog.commits_extend, List.append_nil]
    exact .accepted _ [] htarget (h.adds retry hlast hcarries attempts hcommits
      (fun activation hactivates => absurd hactivates (hnone activation)) fun _ => rfl)
  · rw [hone] at hlast ⊢
    obtain ⟨steps, hreaction, hsteps⟩ :=
      h.reaction retry h₁ hcarries hevents ((honly ⟨id, time⟩).mpr rfl)
    have hcommits : ((synchronous retry).supersedeSiblings reg₁ ⟨id, time⟩ m₁).2.events.commits =
        m.events.commits ++ (committed ++ steps) := by
      rw [hsteps, hevents, EventLog.commits_extend, List.append_assoc]
    refine .accepted _ steps htarget (h.adds retry hlast hcarries attempts hcommits ?_ ?_)
    · intro activation hactivates
      rw [(honly activation).mp hactivates]
      exact ⟨rfl, hreaction⟩
    · exact fun hnone => absurd ((honly ⟨id, time⟩).mpr rfl) (hnone _)

/-- An engine in memory that brings its rows up to date before a command returns can be
assembled unless its configuration is refused. Whatever commands it has handled, the next one
has its effect on the log and the rows, and nothing else. -/
theorem handle_effect (config : EngineConfig) (ids : Nat → Uuid) (commands : List ProfileCommand)
    (command : ProfileCommand) :
    match inMemory { config with dispatch := .synchronous } { Memory.empty with ids } with
    | (.error error, _) => config.error? = some error
    | (.ok (engine, reg), m) =>
      let before := engine.handleAll reg commands m
      engine.Effect before.1 before.2 command (engine.handle before.1 command before.2) := by
  have herror : { config with dispatch := .synchronous }.error? = config.error? := rfl
  simp only [inMemory, assemble, herror]
  cases config.error? with
  | some error => rfl
  | none =>
    have hstart : ∀ m : Memory, m.events = .empty → m.rows = .empty → m.cursors = .empty →
        let before := (synchronous config.retry).handleAll profileRegistry commands m
        (synchronous config.retry).Effect before.1 before.2 command
          ((synchronous config.retry).handle before.1 command before.2) := by
      intro m hevents hrows hcursors
      have hcurrent := Current.start hevents hrows hcursors
      exact (hcurrent.handleAll config.retry commands).effect_handle config.retry command
    exact hstart _ rfl rfl rfl

end Engine

end IdentityLedger
