import IdentityLedger.Proofs.CommandHandler.Guided
import IdentityLedger.Proofs.Engine.Plan
import IdentityLedger.Proofs.Engine.SingleActive

/-!
# What a synchronous engine promises

An engine that has committed something owes its registry a dispatch; if it has committed an
activation, it also owes a look at the siblings, and each that it finds active it still has
to ask to step down. An engine keeps its promises by its plan, whatever others do between
its requests: when it returns from a command, none of them is left.
-/
namespace IdentityLedger

def StoredEvent.activates (stored : StoredEvent) : Bool :=
  (SingleActiveProfile.activation? stored).isSome

theorem StoredEvent.Holds.activates_eq {id : AggregateId} {e : ProfileEvent} {stored : StoredEvent}
    (h : stored.Holds id e) : stored.activates = e.change.isActivation := by
  rw [activates, SingleActiveProfile.activation?_of_holds h]
  cases e.change.isActivation <;> rfl

namespace EventLog
variable {log after : EventLog} {id : AggregateId} {committed : List StoredEvent}

/-- The profile is active for nobody. -/
def Idle (log : EventLog) (id : AggregateId) : Prop := ∀ userId, ¬log.ActiveFor userId id

theorem Grows.stream_ne_nil (h : log.Grows after) (hlog : log.Consistent) (hstream : log.stream id ≠ []) :
    after.stream id ≠ [] := by
  obtain ⟨rest, hrest⟩ := h.stream hlog id
  rw [← hrest]
  exact fun hnil => hstream (List.append_eq_nil_iff.mp hnil).1

theorem Grows.history (h : log.Grows after) (hlog : log.Lawful) (id : AggregateId) :
    ∃ events, after.history id = log.history id ++ events ∧
      (Profile.load id (log.history id)).Fits events := by
  obtain ⟨rest, hrest⟩ := h.stream hlog.consistent id
  have hhistory : after.history id = log.history id ++ rest.filterMap StoredEvent.profileEvent? := by
    rw [EventLog.history, ← hrest, List.filterMap_append]
    rfl
  refine ⟨_, hhistory, ?_⟩
  have hfits := h.lawful.fits id
  rw [hhistory, Profile.fits_append] at hfits
  exact hfits.2

theorem Grows.userId_eq (h : log.Grows after) (hlog : log.Lawful) (hstream : log.stream id ≠ [])
    {userId : UserId} (hactive : after.ActiveFor userId id) :
    (Profile.load id (log.history id)).userId = some userId := by
  obtain ⟨events, hevents, hfits⟩ := h.history hlog id
  have huser := hactive.user
  rw [hevents, Profile.load, Profile.replay_append] at huser
  exact (Profile.userId_replay (hlog.isCreated hstream) hfits).symm.trans huser

theorem Lawful.idle_of_refuses (h : log.Lawful) {supersededBy : AggregateId}
    (hother : supersededBy ≠ id) {time : Timestamp}
    (hrefuses : log.Refuses (.act id (.supersede supersededBy) time)) : log.Idle id := by
  intro userId hactive
  cases hrefuses with
  | missing _ _ _ hstream => exact h.stream_ne_nil hactive hstream
  | rejected _ _ _ rejection hdecide =>
    have hid : (Profile.load id (log.history id)).id = id := (h.fits id).id_replay
    have haccepts := hactive.decide_supersede (h.activeOnlyCreated id) (hid.symm ▸ hother) time
    rw [hid, hdecide] at haccepts
    contradiction

theorem Lawful.not_activates_of_superseded (h : log.Lawful) {profileId supersededBy : AggregateId}
    {time : Timestamp}
    (hcarries : CarriesOut log id (.act profileId (.supersede supersededBy) time) committed) :
    ∀ stored ∈ committed, stored.activates = false := by
  obtain ⟨events, hdecided, _, hholds⟩ := h.decided hcarries
  rw [Profile.eq_of_decide_supersede hdecided] at hholds
  intro stored hmem
  obtain ⟨e, he, hholds⟩ := exists_of_mem_right hholds hmem
  rw [hholds.activates_eq, List.mem_singleton.mp he]
  rfl

end EventLog

/-- What an engine has yet to do for a command. -/
structure Promise where
  /-- Committed events that are to be dispatched. -/
  todo : List StoredEvent
  /-- Committed activations whose siblings are still to be looked for. -/
  heeds : List StoredEvent
  /-- Siblings that are to be asked to step down. -/
  pursues : List AggregateId

namespace Promise

/-- A load may show that a sibling need not be asked. -/
structure Loads (after : EventLog) (p p' : Promise) : Prop where
  todo : p'.todo = p.todo
  heeds : p'.heeds = p.heeds
  pursues : ∀ id ∈ p.pursues, id ∈ p'.pursues ∨ after.Idle id

/-- What lands is to be dispatched, and the activations in it are to be heeded. -/
structure Lands (after : EventLog) (committed : List StoredEvent) (p p' : Promise) : Prop where
  todo : p'.todo = p.todo ++ committed
  heeds : p'.heeds = p.heeds ++ committed.filter StoredEvent.activates
  pursues : ∀ id ∈ p.pursues, id ∈ p'.pursues ∨ after.Idle id

/-- With a look at the rows an activation has been heeded, and the siblings found are pursued. -/
structure Lists (after : EventLog) (id : AggregateId) (rows : List ProfileRow) (p p' : Promise) :
    Prop where
  todo : p.todo = [] ∧ p'.todo = []
  heeds : ∃ stored, stored.aggregateId = id ∧ p.heeds = stored :: p'.heeds
  pursues : p.pursues ⊆ p'.pursues
  siblings : ∀ userId, after.ActiveFor userId id → ∀ row ∈ rows, row.userId = userId →
    row.active = true → row.profileId ≠ id → row.profileId ∈ p'.pursues

end Promise

def EngineRequest.isPatient : EngineRequest → Bool
  | tell _ (.error error) => !error.isLostRace
  | _ => true

namespace EnginePlan
variable {α β : Type}

/-- A plan that keeps a promise, on a log that is at least as long as the one it knows of. -/
def Keeps : EventLog → Promise → EnginePlan α → Prop
  | _, p, .done _ => p = ⟨[], [], []⟩
  | log, p, .ask (.plain .fresh) next => ∀ given, Keeps log p (next given)
  | log, p, .ask (.plain (.note _)) next => ∀ given, Keeps log p (next given)
  | log, p, .ask (.plain (.load id)) next => ∀ after, log.Grows after →
      ∃ p', p.Loads after p' ∧ Keeps after p' (next (.ok (after.stream id)))
  | log, p, .ask (.plain (.append id expected events)) next => ∀ after, log.Grows after →
      match (after.append id expected events).1 with
      | .error error => Keeps after p (next (.error error))
      | .ok committed => ∃ command p', CarriesOut after id command committed ∧
          (after.append id expected events).2 = after.extend id committed ∧
          p.Lands (after.extend id committed) committed p' ∧
          Keeps (after.extend id committed) p' (next (.ok committed))
  | log, p, .ask (.dispatch e) next => ∃ stored todo, e = stored.envelope ∧ p.todo = stored :: todo ∧
      ∀ given, Keeps log { p with todo } (next given)
  | log, p, .ask (.list id) next => ∀ after, log.Grows after → ∀ rows,
      ∃ p', p.Lists after id rows p' ∧ Keeps after p' (next (.ok rows))
  | log, p, .ask (.tell activation result) next =>
      (EngineRequest.tell activation result).isPatient = true → Keeps log p (next ())

variable {log : EventLog} {p : Promise}

theorem Keeps.grows {plan : EnginePlan α} (h : plan.Keeps log p) {log' : EventLog}
    (hgrows : log.Grows log') : plan.Keeps log' p := by
  induction plan generalizing p with
  | done result => exact h
  | ask request next ih =>
    cases request with
    | plain request =>
      cases request with
      | fresh | note => exact fun given => ih given (h given)
      | load | append => exact fun after hafter => h after (hgrows.trans hafter)
    | dispatch e =>
      obtain ⟨stored, todo, he, htodo, hnext⟩ := h
      exact ⟨stored, todo, he, htodo, fun given => ih given (hnext given)⟩
    | list id => exact fun after hafter => h after (hgrows.trans hafter)
    | tell activation result => exact fun hpatient => ih () (h hpatient)

end EnginePlan

namespace Stage

def committed : Stage → List StoredEvent
  | landed _ committed => committed
  | _ => []

/-- What is known of a log at a stage: it holds what has landed. -/
def Known (command : ProfileCommand) (log : EventLog) : Stage → Prop
  | landed id committed => ∃ before, before.Lawful ∧ CarriesOut before id command committed ∧
      (before.extend id committed).Grows log
  | _ => True

theorem Known.grows {command : ProfileCommand} {log after : EventLog} {stage : Stage}
    (h : stage.Known command log) (hgrows : log.Grows after) : stage.Known command after := by
  cases stage with
  | landed id committed =>
    obtain ⟨before, hbefore, hcarries, hlater⟩ := h
    exact ⟨before, hbefore, hcarries, hlater.trans hgrows⟩
  | waiting | refused => trivial

/-- Promises for the stages of handling a command. -/
structure Promises (command : ProfileCommand) (promise : Stage → Promise) : Prop where
  refused : ∀ {log : EventLog}, log.Lawful → log.Refuses command →
    (promise .waiting).Loads log (promise .refused)
  landed : ∀ {log : EventLog} {id : AggregateId} {committed : List StoredEvent}, log.Lawful →
    CarriesOut log id command committed →
      (promise .waiting).Lands (log.extend id committed) committed (promise (.landed id committed))

end Stage

namespace EnginePlan
variable {α β : Type} {log : EventLog} {command : ProfileCommand}

/-- A handler that is guided by its command keeps what is promised for its stages. -/
theorem keeps_lift {promise : Stage → Promise} (hpromises : Stage.Promises command promise)
    {post : Stage → α → Prop} {stage : Stage} {plan : HandlerPlan α} {f : α → EnginePlan β}
    (hlog : log.Lawful) (hknown : stage.Known command log)
    (h : plan.Guided command post log stage)
    (hf : ∀ after stage result, log.Grows after → stage.Known command after → post stage result →
      (f result).Keeps after (promise stage)) : (lift plan >>= f).Keeps log (promise stage) := by
  induction plan generalizing log stage with
  | done result => exact hf log stage result (.refl hlog) hknown h
  | ask request next ih =>
    cases request with
    | fresh | note => exact fun given => ih given hlog hknown (h given) hf
    | load id =>
      intro after hafter
      obtain ⟨stage', hloads, hnext⟩ := h after hafter
      refine ⟨promise stage', ?_, ih _ hafter.lawful ?_ hnext fun last stage result hlast => ?_⟩
      · cases hloads with
        | stays => exact ⟨rfl, rfl, fun _ => .inl⟩
        | refused hrefuses => exact hpromises.refused hafter.lawful hrefuses
      · cases hloads with
        | stays => exact hknown.grows hafter
        | refused => trivial
      · exact hf last stage result (hafter.trans hlast)
    | append id expected events =>
      intro after hafter
      obtain ⟨rfl, hnext⟩ := h after hafter
      cases happend : (after.append id expected events).1 with
      | error error =>
        simp only [happend] at hnext ⊢
        refine ih _ hafter.lawful trivial hnext fun last stage result hlast => ?_
        exact hf last stage result (hafter.trans hlast)
      | ok committed =>
        simp only [happend] at hnext ⊢
        obtain ⟨hcarries, hextended, hnext⟩ := hnext
        have hextend := EventLog.Grows.extend hafter.lawful hcarries
        refine ⟨command, promise (.landed id committed), hcarries, hextended,
          hpromises.landed hafter.lawful hcarries, ?_⟩
        refine ih _ hextend.lawful ⟨after, hafter.lawful, hcarries, .refl hextend.lawful⟩ hnext
          fun last stage result hlast => ?_
        exact hf last stage result (hafter.trans (hextend.trans hlast))

theorem keeps_dispatchAll {heeds : List StoredEvent} {pursues : List AggregateId}
    {events : List StoredEvent} {f : Unit → EnginePlan β} (hf : (f ()).Keeps log ⟨[], heeds, pursues⟩) :
    (dispatchAll events >>= f).Keeps log ⟨events, heeds, pursues⟩ := by
  induction events with
  | nil => exact hf
  | cons stored events ih => exact ⟨stored, events, rfl, rfl, fun _ => ih⟩

theorem keeps_handleAlone (retry : RetryPolicy) {heeds : Stage → List StoredEvent}
    {pursues : Stage → List AggregateId}
    (hpromises : Stage.Promises command fun stage => ⟨stage.committed, heeds stage, pursues stage⟩)
    (hlog : log.Lawful) {f : Except DispatchError CommandOutcome → EnginePlan β}
    (hf : ∀ after stage result, log.Grows after → stage.Known command after →
      stage.Ends command result → (f result).Keeps after ⟨[], heeds stage, pursues stage⟩) :
    (handleAlone retry command >>= f).Keeps log ⟨[], heeds .waiting, pursues .waiting⟩ := by
  rw [handleAlone, bind_assoc]
  refine keeps_lift hpromises hlog (show Stage.waiting.Known command log from trivial)
    (HandlerPlan.guided_handle retry command hlog) ?_
  intro after stage result hafter hknown hends
  have hnext := hf after stage result hafter hknown hends
  cases hends with
  | landed id attempts committed =>
    simp only [bind_assoc, pure_bind]
    exact keeps_dispatchAll hnext
  | lost | refused | notCreated => exact hnext

def siblings (id : AggregateId) (ids : List AggregateId) : Stage → List AggregateId
  | .waiting => id :: ids
  | _ => ids

theorem promises_supersede {activation : Activation} {id : AggregateId}
    (hother : activation.profileId ≠ id) (heeds : List StoredEvent) (ids : List AggregateId) :
    Stage.Promises (.act id (.supersede activation.profileId) activation.activatedAt)
      fun stage => ⟨stage.committed, heeds, siblings id ids stage⟩ where
  refused hlog hrefuses := by
    refine ⟨rfl, rfl, ?_⟩
    rw [siblings, List.forall_mem_cons]
    exact ⟨.inr (hlog.idle_of_refuses hother hrefuses), fun _ => .inl⟩
  landed {log target committed} hlog hcarries := by
    have hnone : committed.filter StoredEvent.activates = [] := by
      rw [List.filter_eq_nil_iff]
      intro stored hmem
      rw [hlog.not_activates_of_superseded hcarries stored hmem]
      exact Bool.false_ne_true
    refine ⟨rfl, ?_, ?_⟩
    · rw [hnone, List.append_nil]
    · rw [siblings, List.forall_mem_cons]
      exact ⟨.inr (hlog.superseded hcarries).2, fun _ => .inl⟩

/-- Every sibling that is pursued is asked to step down, and does or was not active. -/
theorem keeps_supersedeEach (retry : RetryPolicy) (activation : Activation)
    {heeds : List StoredEvent} {ids : List AggregateId} (hids : ∀ id ∈ ids, activation.profileId ≠ id)
    (hlog : log.Lawful) {f : Unit → EnginePlan β}
    (hf : ∀ after, log.Grows after → (f ()).Keeps after ⟨[], heeds, []⟩) :
    (supersedeEach retry activation (ids.map fun id =>
      .act id (.supersede activation.profileId) activation.activatedAt) >>= f).Keeps log
        ⟨[], heeds, ids⟩ := by
  induction ids generalizing log with
  | nil => exact hf log (.refl hlog)
  | cons id ids ih =>
    rw [List.forall_mem_cons] at hids
    rw [List.map_cons, supersedeEach]
    simp only [bind_assoc]
    refine keeps_handleAlone retry (promises_supersede hids.1 heeds ids) hlog ?_
    intro after stage result hafter _ hends hpatient
    have hrest := ih hids.2 hafter.lawful fun last hlast => hf last (hafter.trans hlast)
    cases hends with
    | landed | refused => exact hrest
    | lost error hlost =>
      rw [EngineRequest.isPatient, hlost] at hpatient
      contradiction
    | notCreated error hcreation => contradiction

theorem keeps_load {p : Promise} (hlog : log.Lawful) {id : AggregateId} (hstream : log.stream id ≠ [])
    {f : Except DispatchError Profile → EnginePlan β}
    (hf : ∀ after, log.Grows after → after.stream id ≠ [] →
      (f (.ok (.load id (after.history id)))).Keeps after p) :
    (lift (HandlerPlan.load id) >>= f).Keeps log p := by
  intro after hafter
  have hstream' := hafter.stream_ne_nil hlog.consistent hstream
  refine ⟨p, ⟨rfl, rfl, fun _ => .inl⟩, ?_⟩
  change (f (Repository.replayStream id (after.stream id))).Keeps after p
  rw [hafter.lawful.replayStream_eq hstream']
  exact hf after hafter hstream'

theorem keeps_supersedeListed (retry : RetryPolicy) (activation : Activation) (hlog : log.Lawful)
    {stored : StoredEvent} (hstored : stored.aggregateId = activation.profileId)
    (hstream : log.stream activation.profileId ≠ []) {userId : UserId}
    (huser : (Profile.load activation.profileId (log.history activation.profileId)).userId = some userId)
    {heeds : List StoredEvent} {f : Unit → EnginePlan β}
    (hf : ∀ after, log.Grows after → (f ()).Keeps after ⟨[], heeds, []⟩) :
    (supersedeListed retry activation userId >>= f).Keeps log ⟨[], stored :: heeds, []⟩ := by
  intro after hafter rows
  let siblings := rows.filter (SingleActiveProfile.isSibling activation userId)
  have hreact : SingleActiveProfile.react activation userId rows =
      ((siblings.map ProfileRow.profileId).map fun id =>
        .act id (.supersede activation.profileId) activation.activatedAt) := by
    rw [SingleActiveProfile.react, List.map_map]
    rfl
  refine ⟨⟨[], heeds, siblings.map ProfileRow.profileId⟩, ⟨⟨rfl, rfl⟩, ⟨stored, hstored, rfl⟩, ?_, ?_⟩, ?_⟩
  · exact List.nil_subset _
  · intro userId' hactive row hrow huser' hrowActive hother
    have hsame : userId' = userId := by
      rw [hafter.userId_eq hlog hstream hactive] at huser
      exact Option.some.inj huser
    refine List.mem_map_of_mem (List.mem_filter.mpr ⟨hrow, ?_⟩)
    rw [SingleActiveProfile.isSibling, decide_eq_true_eq]
    exact ⟨huser'.trans hsame, hrowActive, hother⟩
  · change (supersedeEach retry activation (SingleActiveProfile.react activation userId rows) >>=
      f).Keeps after _
    rw [hreact]
    refine keeps_supersedeEach retry activation ?_ hafter.lawful fun last hlast => hf last (hafter.trans hlast)
    rw [List.forall_mem_map]
    intro row hmem
    have hsibling := (List.mem_filter.mp hmem).2
    rw [SingleActiveProfile.isSibling, decide_eq_true_eq] at hsibling
    exact Ne.symm hsibling.2.2

/-- The siblings of an activated profile are looked for, and those that are found step down. -/
theorem keeps_supersedeSiblings (retry : RetryPolicy) (activation : Activation) (hlog : log.Lawful)
    {stored : StoredEvent} (hstored : stored.aggregateId = activation.profileId)
    (hstream : log.stream activation.profileId ≠ []) {heeds : List StoredEvent}
    {f : Unit → EnginePlan β} (hf : ∀ after, log.Grows after → (f ()).Keeps after ⟨[], heeds, []⟩) :
    (supersedeSiblings retry activation >>= f).Keeps log ⟨[], stored :: heeds, []⟩ := by
  rw [supersedeSiblings, bind_assoc]
  refine keeps_load hlog hstream fun after hafter hstream' => ?_
  obtain ⟨userId, huser⟩ := hafter.lawful.exists_userId hstream'
  simp only [Profile.load] at huser ⊢
  rw [huser]
  exact keeps_supersedeListed retry activation hafter.lawful hstored hstream' huser
    fun last hlast => hf last (hafter.trans hlast)

theorem keeps_supersedeAll (retry : RetryPolicy) {events : List StoredEvent} (hlog : log.Lawful)
    (hevents : ∀ stored ∈ events, log.stream stored.aggregateId ≠ [] ∧
      ∀ activation ∈ SingleActiveProfile.activation? stored, stored.aggregateId = activation.profileId)
    {f : Unit → EnginePlan β} (hf : ∀ after, log.Grows after → (f ()).Keeps after ⟨[], [], []⟩) :
    (supersedeAll retry (SingleActiveProfile.activations events) >>= f).Keeps log
      ⟨[], events.filter StoredEvent.activates, []⟩ := by
  induction events generalizing log with
  | nil => exact hf log (.refl hlog)
  | cons stored events ih =>
    rw [List.forall_mem_cons] at hevents
    obtain ⟨⟨hstream, hprofile⟩, hevents⟩ := hevents
    rw [SingleActiveProfile.activations, List.filterMap_cons, List.filter_cons, StoredEvent.activates]
    cases hactivation : SingleActiveProfile.activation? stored with
    | none => exact ih hlog hevents hf
    | some activation =>
      have hid := hprofile activation hactivation
      rw [hid] at hstream
      rw [Option.isSome_some, if_pos rfl]
      dsimp only
      rw [supersedeAll, bind_assoc]
      refine keeps_supersedeSiblings retry activation hlog hid hstream fun after hafter => ?_
      refine ih hafter.lawful (fun stored hmem => ?_) fun last hlast => hf last (hafter.trans hlast)
      exact ⟨hafter.stream_ne_nil hlog.consistent (hevents stored hmem).1, (hevents stored hmem).2⟩

/-- An engine that handles a command keeps all that it promises meanwhile. -/
theorem keeps_handle (retry : RetryPolicy) (command : ProfileCommand) (hlog : log.Lawful) :
    (handle retry command).Keeps log ⟨[], [], []⟩ := by
  have hpromises : Stage.Promises command
      fun stage => ⟨stage.committed, stage.committed.filter StoredEvent.activates, []⟩ :=
    ⟨fun _ _ => ⟨rfl, rfl, fun _ => .inl⟩, fun _ _ => ⟨rfl, rfl, fun _ => .inl⟩⟩
  refine keeps_handleAlone retry hpromises hlog fun after stage result hafter hknown hends => ?_
  cases hends with
  | landed id attempts committed =>
    obtain ⟨before, hbefore, hcarries, hgrows⟩ := hknown
    refine keeps_supersedeAll retry hafter.lawful (fun stored hmem => ?_) fun _ _ => rfl
    obtain ⟨events, _, _, hholds⟩ := hbefore.decided hcarries
    obtain ⟨e, _, hstored⟩ := exists_of_mem_right hholds hmem
    rw [hstored.aggregateId_eq]
    constructor
    · refine hgrows.stream_ne_nil (hbefore.extend hcarries).consistent ?_
      rw [EventLog.stream_extend, if_pos rfl]
      exact fun hnil => List.ne_nil_of_mem hmem (List.append_eq_nil_iff.mp hnil).2
    · intro activation hactivation
      refine (hbefore.activated hcarries activation ?_).symm
      exact List.mem_filterMap.mpr ⟨stored, hmem, hactivation⟩
  | lost | refused | notCreated => rfl

end EnginePlan

end IdentityLedger
