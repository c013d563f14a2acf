import IdentityLedger.Proofs.CommandHandler.Uncontended
import IdentityLedger.Proofs.Engine.ReadModel
import IdentityLedger.Proofs.Profile.Activity

/-!
# One active profile per user

A command can leave its own user with two active profiles, the one it has activated among
them. Every sibling that is still active then has a row that says so, is asked to step
down, and does. So whenever an engine has returned from a command, no user has two active
profiles, neither in the streams nor in the rows.
-/
namespace IdentityLedger

namespace SingleActiveProfile

theorem activation?_of_holds {id : AggregateId} {e : ProfileEvent} {stored : StoredEvent}
    (h : stored.Holds id e) : activation? stored =
      if e.change.isActivation then some ⟨e.profileId, e.occurredAt⟩ else none := by
  rw [activation?, h.eventType_eq, h.profileEvent?_eq]
  obtain ⟨profileId, time, change⟩ := e
  cases change <;> rfl

theorem activations_of_holds {id : AggregateId} {events : List ProfileEvent}
    {committed : List StoredEvent} (h : List.Forall₂ (StoredEvent.Holds id) events committed) :
    activations committed =
      (events.filter fun e => e.change.isActivation).map fun e => ⟨e.profileId, e.occurredAt⟩ := by
  induction h with
  | nil => rfl
  | @cons e stored events committed hholds _ ih =>
    rw [activations] at ih ⊢
    rw [List.filterMap_cons, activation?_of_holds hholds, ih, List.filter_cons]
    cases e.change.isActivation <;> rfl

/-- What the siblings of an activated profile are asked, and who is asked. -/
theorem mem_react {activation : Activation} {userId : UserId} {rows : List ProfileRow}
    {command : ProfileCommand} : command ∈ react activation userId rows ↔
      ∃ row ∈ rows, (row.userId = userId ∧ row.active = true ∧ row.profileId ≠ activation.profileId) ∧
        command = .act row.profileId (.supersede activation.profileId) activation.activatedAt := by
  have hsibling (row : ProfileRow) : row ∈ rows.filter (isSibling activation userId) ↔ row ∈ rows ∧
      row.userId = userId ∧ row.active = true ∧ row.profileId ≠ activation.profileId := by
    rw [List.mem_filter, isSibling, decide_eq_true_eq]
  rw [react, List.mem_map]
  constructor
  · rintro ⟨row, hrow, rfl⟩
    exact ⟨row, ((hsibling row).mp hrow).1, ((hsibling row).mp hrow).2, rfl⟩
  · rintro ⟨row, hmem, hother, rfl⟩
    exact ⟨row, (hsibling row).mpr ⟨hmem, hother⟩, rfl⟩

end SingleActiveProfile

theorem Profile.ActiveFor.exists_row {id : AggregateId} {history : List ProfileEvent} {userId : UserId}
    (h : (Profile.load id history).ActiveFor userId) (hfits : (Profile.blank id).Fits history) :
    ∃ row, (Profile.load id history).row? = some row ∧ row.profileId = id ∧ row.userId = userId ∧
      row.active = true := by
  have huser := Profile.isSome_userId_replay (p := .blank id) rfl history
  have hcreated := Profile.activeOnlyCreated_load hfits h.active
  obtain ⟨row, hrow⟩ := Option.isSome_iff_exists.mp (Profile.isSome_row? huser hcreated h.live)
  have hagrees := Profile.agrees_of_row? hrow
  exact ⟨row, hrow, hagrees.profileId.trans hfits.id_replay,
    Option.some.inj (hagrees.userId.trans h.user), hagrees.active.trans h.active⟩

namespace EventLog
variable {log : EventLog} {id : AggregateId} {command : ProfileCommand}
variable {events : List ProfileEvent} {committed : List StoredEvent}

/-- The profile of an aggregate is active for a user. -/
def ActiveFor (log : EventLog) (userId : UserId) (id : AggregateId) : Prop :=
  (Profile.load id (log.history id)).ActiveFor userId

/-- No user has two active profiles. -/
def SingleActive (log : EventLog) : Prop :=
  ∀ userId a b, log.ActiveFor userId a → log.ActiveFor userId b → a = b

/-- No user has two active profiles, `id` not counted. -/
def SingleActiveBut (log : EventLog) (id : AggregateId) : Prop :=
  ∀ userId a b, a ≠ id → b ≠ id → log.ActiveFor userId a → log.ActiveFor userId b → a = b

/-- No profile is active afterwards that was not before. -/
def Subsides (before after : EventLog) : Prop :=
  ∀ userId id, after.ActiveFor userId id → before.ActiveFor userId id

theorem SingleActive.but (h : log.SingleActive) (id : AggregateId) : log.SingleActiveBut id :=
  fun userId a b _ _ => h userId a b

theorem SingleActive.empty : SingleActive .empty := by
  intro userId a b ha _
  exact absurd ha.active Bool.false_ne_true

theorem SingleActive.subsides {after : EventLog} (h : log.SingleActive)
    (hsubsides : Subsides log after) : after.SingleActive :=
  fun userId a b ha hb => h userId a b (hsubsides userId a ha) (hsubsides userId b hb)

theorem SingleActiveBut.singleActive (h : log.SingleActiveBut id)
    (hnone : ∀ userId, ¬log.ActiveFor userId id) : log.SingleActive := by
  intro userId a b ha hb
  have hcounted : ∀ x, log.ActiveFor userId x → x ≠ id := by
    rintro x hx rfl
    exact hnone userId hx
  exact h userId a b (hcounted a ha) (hcounted b hb) ha hb

/-- If nobody but `id` is active for its user any more, it need not be left out of the count. -/
theorem SingleActiveBut.of_subsides {after : EventLog} (h : log.SingleActiveBut id)
    (hsubsides : Subsides log after) {userId : UserId}
    (huser : (Profile.load id (log.history id)).userId = some userId)
    (honly : ∀ other, after.ActiveFor userId other → other = id) : after.SingleActive := by
  intro userId' a b ha hb
  by_cases hsame : userId' = userId
  · subst hsame
    exact (honly a ha).trans (honly b hb).symm
  · have hcounted : ∀ x, log.ActiveFor userId' x → x ≠ id := by
      rintro x hx rfl
      exact hsame (Option.some.inj (hx.user.symm.trans huser))
    have ha' := hsubsides userId' a ha
    have hb' := hsubsides userId' b hb
    exact h userId' a b (hcounted a ha') (hcounted b hb') ha' hb'

theorem activeFor_extend_of_ne (hholds : List.Forall₂ (StoredEvent.Holds id) events committed)
    {other : AggregateId} (hne : other ≠ id) {userId : UserId} :
    (log.extend id committed).ActiveFor userId other ↔ log.ActiveFor userId other := by
  rw [ActiveFor, ActiveFor, history_extend hholds, if_neg hne]

theorem activeFor_extend_self (hholds : List.Forall₂ (StoredEvent.Holds id) events committed)
    {userId : UserId} : (log.extend id committed).ActiveFor userId id ↔
      ((Profile.load id (log.history id)).replay events).ActiveFor userId := by
  rw [ActiveFor, history_extend hholds, if_pos rfl, Profile.load, Profile.replay_append, Profile.load]

theorem Lawful.activeOnlyCreated (h : log.Lawful) (id : AggregateId) :
    (Profile.load id (log.history id)).ActiveOnlyCreated := Profile.activeOnlyCreated_load (h.fits id)

theorem stream_ne_nil_of_isCreated (h : (Profile.load id (log.history id)).isCreated = true) :
    log.stream id ≠ [] := by
  intro hstream
  rw [history, hstream] at h
  contradiction

theorem Lawful.stream_ne_nil (h : log.Lawful) {userId : UserId} (hactive : log.ActiveFor userId id) :
    log.stream id ≠ [] :=
  stream_ne_nil_of_isCreated (h.activeOnlyCreated id hactive.active)

/-- Whatever a command does, it leaves the activity of other profiles alone. -/
theorem Lawful.singleActiveBut (h : log.Lawful) (hcarries : CarriesOut log id command committed)
    (hsingle : log.SingleActive) : (log.extend id committed).SingleActiveBut id := by
  obtain ⟨events, _, _, hholds⟩ := h.decided hcarries
  intro userId a b hne hne' ha hb
  rw [activeFor_extend_of_ne hholds hne] at ha
  rw [activeFor_extend_of_ne hholds hne'] at hb
  exact hsingle userId a b ha hb

theorem Lawful.activated (h : log.Lawful) (hcarries : CarriesOut log id command committed) :
    ∀ activation ∈ SingleActiveProfile.activations committed, activation.profileId = id := by
  obtain ⟨events, _, hfits, hholds⟩ := h.decided hcarries
  rw [SingleActiveProfile.activations_of_holds hholds]
  intro activation hmem
  obtain ⟨e, he, rfl⟩ := List.mem_map.mp hmem
  exact (hfits.profileId_eq e (List.mem_filter.mp he).1).trans (h.fits id).id_replay

theorem Lawful.subsides (h : log.Lawful) (hcarries : CarriesOut log id command committed)
    (hnone : SingleActiveProfile.activations committed = []) :
    Subsides log (log.extend id committed) := by
  obtain ⟨events, _, hfits, hholds⟩ := h.decided hcarries
  rw [SingleActiveProfile.activations_of_holds hholds, List.map_eq_nil_iff,
    List.filter_eq_nil_iff] at hnone
  intro userId other hactive
  by_cases hother : other = id
  · subst hother
    rw [activeFor_extend_self hholds] at hactive
    refine hactive.of_replay (h.activeOnlyCreated _) hfits fun e he => ?_
    simpa using hnone e he
  · exact (activeFor_extend_of_ne hholds hother).mp hactive

/-- A profile that steps down is active for nobody, and no other becomes active. -/
theorem Lawful.superseded (h : log.Lawful) {profileId supersededBy : AggregateId} {time : Timestamp}
    (hcarries : CarriesOut log id (.act profileId (.supersede supersededBy) time) committed) :
    Subsides log (log.extend id committed) ∧
      ∀ userId, ¬(log.extend id committed).ActiveFor userId profileId := by
  obtain ⟨events, hdecided, hfits, hholds⟩ := h.decided hcarries
  have hevents := Profile.eq_of_decide_supersede hdecided
  have hid : id = profileId := (h.fits id).id_replay.symm.trans (Profile.id_of_decide hdecided)
  subst hevents hid
  constructor
  · apply h.subsides hcarries
    rw [SingleActiveProfile.activations_of_holds hholds]
    rfl
  · intro userId hactive
    rw [activeFor_extend_self hholds] at hactive
    exact absurd hactive.active Bool.false_ne_true

end EventLog

theorem CommandHandler.handleInto_result {ω : Type} [IdSupply ω] [Journal ω]
    (h : CommandHandler ω) (synchronous : Bool) (reg : Registry ω) (command : ProfileCommand)
    (w : ω) : (h.handleInto synchronous reg command w).1.1 = (h.handle command w).1 := by
  rw [handleInto, bind_apply]
  generalize h.handle command w = step
  obtain ⟨_ | outcome, w'⟩ := step
  · rfl
  · cases synchronous <;> rfl

namespace Engine
variable {reg : Registry Memory} {m : Memory} (retry : RetryPolicy)

theorem Current.handleAlone_active (h : Current reg m) {userId : UserId} {profileId : AggregateId}
    (hactive : m.events.ActiveFor userId profileId) {supersededBy : AggregateId}
    (hother : supersededBy ≠ profileId) (time : Timestamp) : ∃ outcome,
      ((synchronous retry).handleAlone reg (.act profileId (.supersede supersededBy) time) m).1.1 =
        .ok outcome := by
  have hid : (Profile.load profileId (m.events.history profileId)).id = profileId :=
    (h.lawful.fits profileId).id_replay
  have hdecide := hactive.decide_supersede (h.lawful.activeOnlyCreated profileId)
    (hid.symm ▸ hother) time
  rw [hid] at hdecide
  obtain ⟨outcome, hhandle⟩ :=
    Memory.handle_of_decide h.lawful (h.lawful.stream_ne_nil hactive) retry hdecide
  exact ⟨outcome, (CommandHandler.handleInto_result _ _ _ _ _).trans hhandle⟩

/-- A profile that is asked to step down for another is not active afterwards: if it was
before, it has accepted. -/
theorem Current.handleAlone_supersede (h : Current reg m) {profileId supersededBy : AggregateId}
    (hother : supersededBy ≠ profileId) (time : Timestamp) :
    let after := (synchronous retry).handleAlone reg (.act profileId (.supersede supersededBy) time) m
    EventLog.Subsides m.events after.2.events ∧
      ∀ userId, ¬after.2.events.ActiveFor userId profileId := by
  intro after
  have hsettles := (h.settles retry (.act profileId (.supersede supersededBy) time)).2
  have haccepts := fun userId (hactive : m.events.ActiveFor userId profileId) =>
    h.handleAlone_active retry hactive hother time
  change Settles m _ after at hsettles
  change ∀ userId, _ → ∃ outcome, after.1.1 = .ok outcome at haccepts
  generalize after = step at hsettles haccepts
  cases hsettles with
  | rejected error hevents =>
    rw [hevents]
    refine ⟨fun _ _ hactive => hactive, fun userId hactive => ?_⟩
    obtain ⟨outcome, hhandle⟩ := haccepts userId hactive
    exact absurd hhandle nofun
  | accepted id attempts committed hcarries hevents =>
    rw [hevents]
    exact h.lawful.superseded hcarries

theorem Current.stepDown (h : Current reg m) (activation : Activation)
    {commands : List ProfileCommand} (hcommands : ∀ command ∈ commands, ∃ profileId time,
      activation.profileId ≠ profileId ∧
        command = .act profileId (.supersede activation.profileId) time) :
    let after := (synchronous retry).supersedeEach activation reg commands m
    EventLog.Subsides m.events after.2.events ∧ ∀ profileId time,
      .act profileId (.supersede activation.profileId) time ∈ commands →
        ∀ userId, ¬after.2.events.ActiveFor userId profileId := by
  induction commands generalizing reg m with
  | nil => exact ⟨fun _ _ hactive => hactive, fun _ _ hmem => absurd hmem List.not_mem_nil⟩
  | cons command commands ih =>
    rw [List.forall_mem_cons] at hcommands
    obtain ⟨⟨profileId, time, hother, rfl⟩, hcommands⟩ := hcommands
    obtain ⟨hsubsides, hdown⟩ := h.handleAlone_supersede retry hother time
    obtain ⟨level, message, fields, hcons⟩ := (synchronous retry).supersedeEach_cons activation reg
      (.act profileId (.supersede activation.profileId) time) commands m
    have hfirst := (h.handleAlone retry (.act profileId (.supersede activation.profileId) time)).report
      level message fields
    obtain ⟨hsubsides', hdown'⟩ := ih hfirst hcommands
    rw [hcons]
    refine ⟨fun userId id hactive => hsubsides userId id (hsubsides' userId id hactive), ?_⟩
    intro profileId' time' hmem userId hactive
    rcases List.mem_cons.mp hmem with heq | hmem
    · cases heq
      exact hdown userId (hsubsides' userId profileId hactive)
    · exact hdown' profileId' time' hmem userId hactive

theorem Current.values (h : Current reg m) :
    m.rows.values.Pairwise (fun a b => a.profileId < b.profileId) ∧ ∀ row, row ∈ m.rows.values ↔
      (Profile.load row.profileId (m.events.history row.profileId)).row? = some row := by
  obtain ⟨r, _, hfollows⟩ := h.tracked.runners
  obtain ⟨hordered, hmem⟩ := hfollows.shows.values h.lawful
  refine ⟨hordered, fun row => ?_⟩
  rw [← h.get?_rows]
  exact hmem row

/-- Every active profile is among the rows. -/
theorem Current.exists_row (h : Current reg m) {userId : UserId} {id : AggregateId}
    (hactive : m.events.ActiveFor userId id) :
    ∃ row ∈ m.rows.values, row.profileId = id ∧ row.userId = userId ∧ row.active = true := by
  obtain ⟨row, hrow, hid, hsays⟩ := Profile.ActiveFor.exists_row hactive (h.lawful.fits id)
  refine ⟨row, ?_, hid, hsays⟩
  rw [h.values.2, hid]
  exact hrow

theorem Current.activeFor_of_row (h : Current reg m) {row : ProfileRow} (hmem : row ∈ m.rows.values)
    (hactive : row.active = true) : m.events.ActiveFor row.userId row.profileId := by
  rw [h.values.2] at hmem
  have hagrees := Profile.agrees_of_row? hmem
  refine ⟨hagrees.active.symm.trans hactive, ?_, hagrees.userId.symm⟩
  by_contra hretired
  rw [Bool.not_eq_false] at hretired
  simp [Profile.row?, hretired] at hmem

theorem Current.singleActive_supersedeSiblings (h : Current reg m) (activation : Activation)
    (hbut : m.events.SingleActiveBut activation.profileId) :
    ((synchronous retry).supersedeSiblings reg activation m).2.events.SingleActive := by
  have hload : Repository.load (synchronous retry).handler.store activation.profileId m =
    (Repository.replayStream activation.profileId (m.events.stream activation.profileId), m) := rfl
  rw [Engine.supersedeSiblings, bind_apply, hload]
  by_cases hstream : m.events.stream activation.profileId = []
  · rw [hstream]
    exact hbut.singleActive fun userId hactive => h.lawful.stream_ne_nil hactive hstream
  rw [h.lawful.replayStream_eq hstream]
  dsimp only
  cases huser : (Profile.load activation.profileId
      (m.events.history activation.profileId)).userId with
  | none =>
    refine hbut.singleActive fun userId hactive => ?_
    exact absurd (huser.symm.trans hactive.user) (Option.some_ne_none userId).symm
  | some userId =>
    have hcommands : ∀ command ∈ SingleActiveProfile.react activation userId m.rows.values,
        ∃ profileId time, activation.profileId ≠ profileId ∧
          command = .act profileId (.supersede activation.profileId) time := by
      intro command hmem
      obtain ⟨row, _, ⟨_, _, hne⟩, rfl⟩ := SingleActiveProfile.mem_react.mp hmem
      exact ⟨row.profileId, activation.activatedAt, Ne.symm hne, rfl⟩
    obtain ⟨hsubsides, hdown⟩ := h.stepDown retry activation hcommands
    -- whoever was active for the user has been asked, the activated profile itself apart
    refine hbut.of_subsides hsubsides huser fun id hactive => ?_
    by_contra hne
    obtain ⟨row, hrow, rfl, hsibling⟩ := h.exists_row (hsubsides userId id hactive)
    refine hdown row.profileId activation.activatedAt ?_ userId hactive
    exact SingleActiveProfile.mem_react.mpr ⟨row, hrow, ⟨hsibling.1, hsibling.2, hne⟩, rfl⟩

theorem Current.singleActive_supersedeAll (h : Current reg m) (hsingle : m.events.SingleActive)
    (activations : List Activation) :
    ((synchronous retry).supersedeAll reg activations m).2.events.SingleActive := by
  induction activations generalizing reg m with
  | nil => exact hsingle
  | cons activation activations ih =>
    exact ih (h.supersedeSiblings retry activation)
      (h.singleActive_supersedeSiblings retry activation (hsingle.but _))

/-- No command leaves a user with two active profiles. -/
theorem Current.singleActive_handle (h : Current reg m) (hsingle : m.events.SingleActive)
    (command : ProfileCommand) :
    ((synchronous retry).handle reg command m).2.events.SingleActive := by
  obtain ⟨hcurrent, hsettles⟩ := h.settles retry command
  rw [Engine.handle, bind_apply]
  generalize (synchronous retry).handleAlone reg command m = step at hcurrent hsettles
  cases hsettles with
  | @rejected error reg' m' hevents =>
    change m'.events.SingleActive
    rw [hevents]
    exact hsingle
  | @accepted id attempts committed reg' m' hcarries hevents =>
    change EventLog.SingleActive ((synchronous retry).supersedeAll reg'
      (SingleActiveProfile.activations committed) m').2.events
    have hactivated := h.lawful.activated hcarries
    have hsubsides := h.lawful.subsides hcarries
    cases hall : SingleActiveProfile.activations committed with
    | nil =>
      change m'.events.SingleActive
      rw [hevents]
      exact hsingle.subsides (hsubsides hall)
    | cons activation activations =>
      rw [hall, List.forall_mem_cons] at hactivated
      have hbut : m'.events.SingleActiveBut activation.profileId := by
        rw [hevents, hactivated.1]
        exact h.lawful.singleActiveBut hcarries hsingle
      exact (hcurrent.supersedeSiblings retry activation).singleActive_supersedeAll retry
        (hcurrent.singleActive_supersedeSiblings retry activation hbut) activations

theorem Current.singleActive_handleAll (h : Current reg m) (hsingle : m.events.SingleActive)
    (commands : List ProfileCommand) :
    ((synchronous retry).handleAll reg commands m).2.events.SingleActive := by
  induction commands generalizing reg m with
  | nil => exact hsingle
  | cons command commands ih =>
    exact ih (h.handle retry command) (h.singleActive_handle retry hsingle command)

/-- No two active profiles of one user: neither that their streams load to, unless they are
retired, nor among the rows. -/
structure SingleActive (e : Engine Memory) (m : Memory) : Prop where
  loaded : ∀ a b p q, (Repository.load e.handler.store a m).1 = .ok p →
    (Repository.load e.handler.store b m).1 = .ok q → p.retired = false → q.retired = false →
      p.userId = q.userId → p.active = true → q.active = true → a = b
  listed : ∃ rows, (e.profiles m).1 = .ok rows ∧
    rows.Pairwise fun a b => a.userId = b.userId → ¬(a.active = true ∧ b.active = true)

theorem Current.singleActive (h : Current reg m) (hsingle : m.events.SingleActive) :
    (synchronous retry).SingleActive m where
  loaded := by
    have hactive : ∀ a p, (Repository.load (synchronous retry).handler.store a m).1 = .ok p →
        p.retired = false → p.active = true →
          ∃ userId, p.userId = some userId ∧ m.events.ActiveFor userId a := by
      intro a p hload hlive hactive
      have hreplay : Repository.replayStream a (m.events.stream a) = .ok p := hload
      have hstream := Repository.applyStored_of_replayStream hreplay
      rw [h.lawful.applyStored_eq] at hstream
      cases hstream
      have huser := Profile.isSome_userId_replay (p := .blank a) rfl (m.events.history a)
      have hcreated := h.lawful.activeOnlyCreated a hactive
      obtain ⟨userId, hsome⟩ := Option.isSome_iff_exists.mp (huser.trans hcreated)
      exact ⟨userId, hsome, hactive, hlive, hsome⟩
    intro a b p q hp hq hlive hlive' huser hactive' hactive''
    obtain ⟨userId, hsome, ha⟩ := hactive a p hp hlive hactive'
    obtain ⟨userId', hsome', hb⟩ := hactive b q hq hlive' hactive''
    rw [hsome, hsome', Option.some.injEq] at huser
    subst huser
    exact hsingle _ a b ha hb
  listed := by
    refine ⟨m.rows.values, rfl, ?_⟩
    refine h.values.1.imp_of_mem fun {a b} ha hb hlt huser hboth => ?_
    have hone := h.activeFor_of_row ha hboth.1
    have hother := h.activeFor_of_row hb hboth.2
    rw [huser] at hone
    rw [hsingle _ _ _ hone hother] at hlt
    exact absurd hlt (irrefl_of (· < ·) b.profileId)

/-- An engine in memory that brings its rows up to date before a command returns can be
assembled unless its configuration is refused. After any commands, accepted or rejected, no
user has two active profiles. -/
theorem handleAll_singleActive (config : EngineConfig) (ids : Nat → Uuid)
    (commands : List ProfileCommand) :
    match inMemory { config with dispatch := .synchronous } { Memory.empty with ids } with
    | (.error error, _) => config.error? = some error
    | (.ok (engine, reg), m) => engine.SingleActive (engine.handleAll reg commands m).2 := by
  have herror : { config with dispatch := .synchronous }.error? = config.error? := rfl
  simp only [inMemory, assemble, herror]
  cases config.error? with
  | some error => rfl
  | none =>
    have hstart : ∀ m, m.events = .empty → m.rows = .empty → m.cursors = .empty →
        (synchronous config.retry).SingleActive
          ((synchronous config.retry).handleAll profileRegistry commands m).2 := by
      intro m hevents hrows hcursors
      have hcurrent := Current.start hevents hrows hcursors
      have hempty : m.events.SingleActive := hevents ▸ .empty
      exact (hcurrent.handleAll config.retry commands).singleActive config.retry
        (hcurrent.singleActive_handleAll config.retry hempty commands)
    exact hstart _ rfl rfl rfl

end Engine

end IdentityLedger
