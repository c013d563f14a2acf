import IdentityLedger.Proofs.CommandHandler.Guided
import IdentityLedger.Proofs.CommandHandler.Race
import IdentityLedger.Proofs.EventStore.Publishing
import IdentityLedger.Proofs.Pool
import IdentityLedger.Proofs.Projection.Hearing

/-!
# Writers, a bus and a follower

Several writers commit to one log and publish what they have committed, event by event, while
a follower takes the messages from the bus and feeds them to its registry. The steps of all
of them interleave freely, so that even the events of one stream may arrive out of order. But
at any time each committed event is in one of three places: received, queued on the bus, or
still owed by its writer. Once all have been received, the registry has heard the whole log,
and the order in which it did is of no account.
-/
namespace IdentityLedger

/-- A log that is written batch by batch, each of which carries out a command on the stream
that it extends. -/
inductive EventLog.Decided : EventLog → Prop
  | empty : Decided .empty
  | extend {log : EventLog} (h : Decided log) {id : AggregateId} {command : ProfileCommand}
      {committed : List StoredEvent} (hcarries : CarriesOut log id command committed) :
      Decided (log.extend id committed)

theorem EventLog.Decided.lawful {log : EventLog} (h : log.Decided) : log.Lawful := by
  induction h with
  | empty => exact .empty
  | extend _ hcarries ih => exact ih.extend hcarries

namespace Memory

structure SameSource (a b : Memory) : Prop where
  events : b.events = a.events
  bus : b.bus = a.bus

theorem sameSource_frame : Frame SameSource :=
  ⟨fun _ => ⟨rfl, rfl⟩, fun hab hbc => ⟨hbc.events.trans hab.events, hbc.bus.trans hab.bus⟩,
    fun _ _ => ⟨rfl, rfl⟩⟩

/-- The read model in a memory, which leaves alone what it is fed from. -/
def followerModel : RowModel Memory where
  rows := RowTable.store rowCell
  cursors := CursorTable.store cursorCell
  cursor := cursor
  table := Memory.rows
  later := SameSource
  steady _ := True
  serves := {
    get := fun _ _ => ⟨rfl, rfl, rfl, rfl, rfl⟩
    upsert := fun _ _ _ => ⟨rfl, rfl, rfl, rfl⟩
    remove := fun _ _ => ⟨rfl, rfl, rfl, rfl⟩
    clear := fun _ => ⟨rfl, rfl, rfl, rfl⟩ }
  tracks := Observation.tracks_of_cell _ cursorCell (fun _ _ => rfl) sameSource_frame (fun _ _ => rfl)
    (fun _ _ => rfl) (fun _ _ => rfl) (fun _ _ => rfl) (fun _ _ _ => ⟨rfl, rfl⟩) (fun _ => ⟨rfl, rfl⟩)
  reliable := {
    later := fun _ _ => trivial
    get := fun _ _ _ herror => nomatch herror
    upsert := fun _ _ _ _ herror => nomatch herror
    remove := fun _ _ _ herror => nomatch herror }

end Memory

/-- Writers on an event store that publishes, and a follower of the bus with its registry. -/
structure Pipeline (α : Type) where
  writers : Pool WriterRequest.Answer Memory α
  registry : Registry Memory
  received : List (Envelope Json)

namespace Pipeline
variable {α : Type}

inductive Turn
  | write (index : Nat)
  | follow

def memory (p : Pipeline α) : Memory := p.writers.state

def log (p : Pipeline α) : EventLog := p.memory.events

/-- A bus with nothing but the follower's subscription. -/
def subscribed (queue : List (Envelope Json)) : Bus (Envelope Json) := ⟨[⟨0, queue, true⟩], 1, true⟩

/-- Writers that have not begun, and a follower that has just subscribed. -/
def start (ids : Nat → Uuid) (plans : List (HandlerPlan α)) : Pipeline α :=
  ⟨⟨{ Memory.empty with bus := Bus.new.subscribe.2, ids }, plans.map WriterPlan.publishing⟩,
    Engine.profileRegistry, []⟩

def answer : (request : WriterRequest) → StateM Memory request.Answer :=
  WriterRequest.answer (EventLog.store Memory.eventCell) (Bus.publisher Memory.busCell)

/-- Takes the oldest message from the bus, if there is one, and dispatches it. -/
def follow (p : Pipeline α) : Pipeline α :=
  match p.memory.bus.receive 0 with
  | (.message e, bus) =>
    let ((_, registry), memory) := p.registry.dispatch e (Memory.busCell.set bus p.memory)
    ⟨⟨memory, p.writers.plans⟩, registry, p.received ++ [e]⟩
  | _ => p

def turn (p : Pipeline α) : Turn → Pipeline α
  | .write index => { p with writers := p.writers.turn answer index }
  | .follow => p.follow

def run (p : Pipeline α) (turns : List Turn) : Pipeline α := turns.foldl turn p

/-- All writers have come to their results, and no message is left. -/
structure IsFinished (p : Pipeline α) : Prop where
  writers : p.writers.IsDone
  queues : ∀ subscription ∈ p.memory.bus.subscriptions, subscription.queue.isEmpty = true

/-- The follower has caught up with the log: the rows are those of the commits in their order,
every cursor is at the end of its stream, and nothing is parked or failed. -/
structure Converged (p : Pipeline α) : Prop where
  rows : p.memory.rows = .ofCommits p.log.commits
  cursors : ∀ id, p.memory.cursor id = (p.log.stream id).length
  parked : ∀ r ∈ p.registry.runners, r.parkedCount = 0
  failures : p.registry.failures = []

/-- A writer that has yet to publish some events of a batch before it goes on. -/
structure Writing (α : Type) where
  target : AggregateId
  events : List StoredEvent
  rest : HandlerPlan α

namespace Writing

def plan (w : Writing α) : WriterPlan α :=
  WriterPlan.announce w.target w.events >>= fun _ => WriterPlan.publishing w.rest

/-- What a turn of a writer does: it publishes the next event that it owes, or it makes a
request, and owes then what this has committed. -/
inductive Turns (m : Memory) : Writing α → Writing α → Memory → Prop
  | done (target : AggregateId) (result : α) :
      Turns m ⟨target, [], .done result⟩ ⟨target, [], .done result⟩ m
  | asks (target target' : AggregateId) (request : HandlerRequest)
      (next : request.Answer → HandlerPlan α) (committed : List StoredEvent)
      (hcommits : (request.answer (EventLog.store Memory.eventCell) m).2.events.commits =
        m.events.commits ++ committed)
      (hbus : (request.answer (EventLog.store Memory.eventCell) m).2.bus = m.bus)
      (hrows : (request.answer (EventLog.store Memory.eventCell) m).2.rows = m.rows)
      (hcursors : (request.answer (EventLog.store Memory.eventCell) m).2.cursors = m.cursors) :
      Turns m ⟨target, [], .ask request next⟩
        ⟨target', committed, next (request.answer (EventLog.store Memory.eventCell) m).1⟩
        (request.answer (EventLog.store Memory.eventCell) m).2
  | publishes (target : AggregateId) (event : StoredEvent) (events : List StoredEvent)
      (rest : HandlerPlan α) : Turns m ⟨target, event :: events, rest⟩ ⟨target, events, rest⟩
        { m with bus := m.bus.publish event.envelope }

theorem turn_plain_append (m : Memory) (id : AggregateId) (expected : ExpectedVersion)
    (batch : List NewEvent)
    (f : HandlerRequest.Answer (.append id expected batch) → WriterPlan α) :
    (WriterPlan.plain (.append id expected batch) >>= f).turn answer m =
      (f (m.events.append id expected batch).1,
        { m with events := (m.events.append id expected batch).2 }) := rfl

/-- A writer whose request for an append was answered owes what was committed. -/
theorem turn_append (m : Memory) (target id : AggregateId) (expected : ExpectedVersion)
    (batch : List NewEvent)
    (next : HandlerRequest.Answer (.append id expected batch) → HandlerPlan α) :
    ∃ w' : Writing α,
      ((plan ⟨target, [], .ask (.append id expected batch) next⟩).turn answer m).1 = w'.plan ∧
        Turns m ⟨target, [], .ask (.append id expected batch) next⟩ w'
          ((plan ⟨target, [], .ask (.append id expected batch) next⟩).turn answer m).2 := by
  have hplan : plan ⟨target, [], .ask (.append id expected batch) next⟩ =
      WriterPlan.publishing (.ask (.append id expected batch) next) := rfl
  have hcases := m.events.append_cases id expected batch
  rw [hplan, WriterPlan.publishing, turn_plain_append]
  refine ⟨⟨id, ((m.events.append id expected batch).1.toOption).getD [],
    next (m.events.append id expected batch).1⟩, ?_, ?_⟩
  · cases (m.events.append id expected batch).1 <;> rfl
  · refine .asks (m := m) target id (.append id expected batch) next _ ?_ rfl rfl rfl
    change (m.events.append id expected batch).2.commits = _
    generalize m.events.append id expected batch = step at hcases
    cases hcases with
    | refused | empty => exact (List.append_nil _).symm
    | stored => rfl

theorem turn_cases (w : Writing α) (m : Memory) :
    ∃ w', (w.plan.turn answer m).1 = w'.plan ∧ Turns m w w' (w.plan.turn answer m).2 := by
  obtain ⟨target, events, rest⟩ := w
  cases events with
  | cons event events => exact ⟨_, rfl, .publishes target event events rest⟩
  | nil =>
    cases rest with
    | done result => exact ⟨_, rfl, .done target result⟩
    | ask request next =>
      cases request with
      | fresh | note | load =>
        exact ⟨⟨target, [], _⟩, rfl, .asks target target _ next [] (List.append_nil _).symm rfl rfl rfl⟩
      | append id expected batch => exact turn_append m target id expected batch next

end Writing

variable {p : Pipeline α} {queue : List (Envelope Json)} {writings : List (Writing α)}

theorem write_cases (hplans : p.writers.plans = writings.map Writing.plan) (index : Nat) :
    p.turn (.write index) = p ∨ ∃ before w after w' m', writings = before ++ w :: after ∧
      Writing.Turns p.memory w w' m' ∧
      p.turn (.write index) = ⟨⟨m', (before ++ w' :: after).map Writing.plan⟩, p.registry, p.received⟩ := by
  have hturns := p.writers.turn_cases answer index
  rw [turn]
  generalize p.writers.turn answer index = writers at hturns
  cases hturns with
  | idle => exact .inl rfl
  | taken before after plan hsplit =>
    right
    rw [hplans] at hsplit
    obtain ⟨before, rest, rfl, rfl, hrest⟩ := List.map_eq_append_iff.mp hsplit
    obtain ⟨w, after, rfl, rfl, rfl⟩ := List.map_eq_cons_iff.mp hrest
    obtain ⟨w', hplan, hturn⟩ := w.turn_cases p.memory
    refine ⟨before, w, after, w', _, rfl, hturn, ?_⟩
    rw [List.map_append, List.map_cons, ← hplan]
    rfl

/-- What writers have yet to publish. -/
def owed (writings : List (Writing α)) : List (Envelope Json) :=
  (writings.flatMap Writing.events).map StoredEvent.envelope

theorem owed_split (before : List (Writing α)) (w : Writing α) (after : List (Writing α)) :
    owed (before ++ w :: after) = owed before ++ (w.events.map StoredEvent.envelope ++ owed after) := by
  simp only [owed, List.flatMap_append, List.flatMap_cons, List.map_append]

theorem owed_commit (before after : List (Writing α)) (w w' : Writing α) (hnone : w.events = []) :
    (owed (before ++ w' :: after)).Perm
      (owed (before ++ w :: after) ++ w'.events.map StoredEvent.envelope) := by
  rw [owed_split, owed_split, hnone, List.map_nil, List.nil_append, List.append_assoc]
  exact List.perm_append_comm.append_left _

theorem owed_publish (before after : List (Writing α)) (w w' : Writing α) {event : StoredEvent}
    (hevents : w.events = event :: w'.events) :
    (event.envelope :: owed (before ++ w' :: after)).Perm (owed (before ++ w :: after)) := by
  rw [owed_split, owed_split, hevents]
  exact List.perm_middle.symm

/-- Where the committed events are: each is received, queued or owed. -/
structure Balanced (p : Pipeline α) (queue : List (Envelope Json)) (writings : List (Writing α)) :
    Prop where
  plans : p.writers.plans = writings.map Writing.plan
  bus : p.memory.bus = subscribed queue
  attends : Memory.followerModel.Attends p.registry
  account : (p.received ++ (queue ++ owed writings)).Perm p.log.envelopes

theorem balanced_start (ids : Nat → Uuid) (plans : List (HandlerPlan α)) :
    (start ids plans).Balanced [] (plans.map fun plan => ⟨⟨⟨0⟩⟩, [], plan⟩) where
  plans := by
    rw [List.map_map]
    rfl
  bus := rfl
  attends := ⟨_, rfl⟩
  account := by
    have hnone : owed (plans.map fun plan => (⟨⟨⟨0⟩⟩, [], plan⟩ : Writing α)) = [] := by
      rw [owed, List.flatMap_map, List.map_eq_nil_iff]
      exact List.flatMap_eq_nil_iff.mpr fun _ _ => rfl
    rw [hnone]
    rfl

theorem Balanced.write (h : p.Balanced queue writings) (index : Nat) :
    p.log.commits <+: (p.turn (.write index)).log.commits ∧
      ∃ queue' writings', (p.turn (.write index)).Balanced queue' writings' := by
  rcases write_cases h.plans index with hidle | ⟨before, w, after, w', m', rfl, hturn, heq⟩
  · rw [hidle]
    exact ⟨List.prefix_rfl, queue, writings, h⟩
  rw [heq]
  cases hturn with
  | done target result => exact ⟨List.prefix_rfl, queue, _, rfl, h.bus, h.attends, h.account⟩
  | asks target target' request next committed hcommits hbus hrows hcursors =>
    refine ⟨⟨committed, hcommits.symm⟩, queue, _, rfl, hbus.trans h.bus, h.attends, ?_⟩
    have hnew := owed_commit before after ⟨target, [], .ask request next⟩
      ⟨target', committed, next (request.answer (EventLog.store Memory.eventCell) p.memory).1⟩ rfl
    have henvelopes : (request.answer (EventLog.store Memory.eventCell) p.memory).2.events.envelopes =
        p.log.envelopes ++ committed.map StoredEvent.envelope := by
      rw [EventLog.envelopes, hcommits, List.map_append]
      rfl
    refine ((hnew.append_left queue).append_left p.received).trans ?_
    rw [← List.append_assoc queue, ← List.append_assoc p.received]
    exact (h.account.append_right _).trans (.of_eq henvelopes.symm)
  | publishes target event events rest =>
    refine ⟨List.prefix_rfl, queue ++ [event.envelope], _, rfl, ?_, h.attends, ?_⟩
    · exact congrArg (Bus.publish · event.envelope) h.bus
    · have hnext := owed_publish before after ⟨target, event :: events, rest⟩ ⟨target, events, rest⟩ rfl
      rw [List.append_assoc, List.singleton_append]
      exact ((hnext.append_left queue).append_left p.received).trans h.account

/-- The follower takes the head of its queue, if there is one. -/
theorem Balanced.follow_cases (h : p.Balanced queue writings) :
    queue = [] ∧ p.follow = p ∨ ∃ e rest, queue = e :: rest ∧
      let step := p.registry.dispatch e (Memory.busCell.set (subscribed rest) p.memory)
      p.follow = ⟨⟨step.2, p.writers.plans⟩, step.1.2, p.received ++ [e]⟩ := by
  rw [follow, h.bus]
  cases queue with
  | nil => exact .inl ⟨rfl, rfl⟩
  | cons e rest => exact .inr ⟨e, rest, rfl, rfl⟩

/-- What the follower does is of no account to the writers. -/
theorem follow_frame (h : Memory.followerModel.Attends p.registry) :
    p.follow.writers.plans = p.writers.plans ∧ p.follow.log = p.log ∧
      Memory.followerModel.Attends p.follow.registry := by
  rw [follow]
  split
  · rename_i e bus _
    obtain ⟨hattends, hlater⟩ := h.dispatch e (Memory.busCell.set bus p.memory)
    exact ⟨rfl, hlater.events, hattends⟩
  · exact ⟨rfl, rfl, h⟩

theorem Balanced.follow (h : p.Balanced queue writings) : ∃ queue', p.follow.Balanced queue' writings := by
  obtain ⟨hplans, hlog, hattends⟩ := follow_frame h.attends
  rcases h.follow_cases with ⟨_, hidle⟩ | ⟨e, rest, rfl, heq⟩
  · rw [hidle]
    exact ⟨queue, h⟩
  · refine ⟨rest, hplans.trans h.plans, ?_, hattends, ?_⟩
    · rw [heq]
      exact (h.attends.dispatch e (Memory.busCell.set (subscribed rest) p.memory)).2.bus
    · rw [hlog, heq, List.append_assoc]
      exact h.account

/-- Each turn leaves every committed event in its place or moves it on. -/
theorem Balanced.turn (h : p.Balanced queue writings) (turn : Turn) :
    p.log.commits <+: (p.turn turn).log.commits ∧
      ∃ queue' writings', (p.turn turn).Balanced queue' writings' := by
  cases turn with
  | write index => exact h.write index
  | follow =>
    obtain ⟨queue', hbalanced⟩ := h.follow
    have hlog : (p.turn .follow).log = p.log := (follow_frame h.attends).2.1
    exact ⟨hlog ▸ List.prefix_rfl, queue', writings, hbalanced⟩

theorem Balanced.run (h : p.Balanced queue writings) (turns : List Turn) :
    p.log.commits <+: (p.run turns).log.commits ∧
      ∃ queue' writings', (p.run turns).Balanced queue' writings' := by
  induction turns generalizing p queue writings with
  | nil => exact ⟨List.prefix_rfl, queue, writings, h⟩
  | cons turn turns ih =>
    obtain ⟨hcommits, queue', writings', hbalanced⟩ := h.turn turn
    obtain ⟨hrest, hend⟩ := ih hbalanced
    exact ⟨hcommits.trans hrest, hend⟩

/-- When all have come to their results, nothing is queued or owed. -/
theorem Balanced.received_perm (h : p.Balanced queue writings) (hfinished : p.IsFinished) :
    p.received.Perm p.log.envelopes := by
  have hqueue : queue = [] := by
    have hempty := hfinished.queues
    rw [h.bus] at hempty
    exact List.isEmpty_iff.mp (hempty _ List.mem_cons_self)
  have howed : owed writings = [] := by
    rw [owed, List.map_eq_nil_iff, List.flatMap_eq_nil_iff]
    intro w hw
    have hdone := hfinished.writers w.plan (h.plans ▸ List.mem_map_of_mem hw)
    obtain ⟨target, _ | ⟨event, events⟩, rest⟩ := w
    · rfl
    · cases hdone
  have haccount := h.account
  rw [hqueue, howed, List.append_nil, List.append_nil] at haccount
  exact haccount

theorem Balanced.hears {final : EventLog} (hfinal : final.Lawful) (h : p.Balanced queue writings)
    (hhears : Memory.followerModel.Hears final p.received p.registry p.memory) {turns : List Turn}
    (hlast : (p.run turns).log = final) : Memory.followerModel.Hears final (p.run turns).received
      (p.run turns).registry (p.run turns).memory := by
  induction turns generalizing p queue writings with
  | nil => exact hhears
  | cons turn turns ih =>
    obtain ⟨_, queue', writings', hbalanced⟩ := h.turn turn
    refine ih hbalanced ?_ hlast
    cases turn with
    | write index =>
      rcases write_cases h.plans index with hidle | ⟨before, w, after, w', m', rfl, hturn, heq⟩
      · rw [hidle]
        exact hhears
      · rw [heq]
        cases hturn with
        | done | publishes => exact hhears.congr rfl rfl trivial
        | asks target target' request next committed hcommits hbus hrows hcursors =>
          refine hhears.congr ?_ hrows trivial
          funext id
          exact congrArg (fun cursors => (CursorTable.get? cursors profileProjectionName id).getD 0) hcursors
    | follow =>
      rcases h.follow_cases with ⟨_, hidle⟩ | ⟨e, rest, rfl, heq⟩
      · change Memory.followerModel.Hears final p.follow.received p.follow.registry p.follow.memory
        rw [hidle]
        exact hhears
      · have hmem : e ∈ p.log.envelopes := by
          refine h.account.mem_iff.mp ?_
          simp
        have hcommits := (h.run (.follow :: turns)).1
        rw [hlast] at hcommits
        have hmem' : e ∈ final.envelopes := List.map_subset _ hcommits.subset hmem
        change Memory.followerModel.Hears final p.follow.received p.follow.registry p.follow.memory
        have hbefore : Memory.followerModel.Hears final p.received p.registry
            (Memory.busCell.set (subscribed rest) p.memory) := hhears.congr rfl rfl trivial
        rw [heq]
        exact hbefore.dispatch hfinal hmem'

/-- The answer to a guided plan leaves it guided, on a log that is as it was or has been
extended by what carries out the command. -/
theorem guided_answer {command : ProfileCommand} {post : Stage → α → Prop} {stage : Stage}
    {request : HandlerRequest} {next : request.Answer → HandlerPlan α} {m : Memory}
    (hlog : m.events.Decided)
    (h : HandlerPlan.Guided command post m.events stage (.ask request next)) :
    let step := request.answer (EventLog.store Memory.eventCell) m
    step.2.events.Decided ∧ m.events.Grows step.2.events ∧
      ∃ stage', (next step.1).Guided command post step.2.events stage' := by
  have hrefl := EventLog.Grows.refl hlog.lawful
  cases request with
  | fresh | note => exact ⟨hlog, hrefl, stage, h _⟩
  | load id =>
    obtain ⟨stage', _, hnext⟩ := h m.events hrefl
    exact ⟨hlog, hrefl, stage', hnext⟩
  | append id expected batch =>
    obtain ⟨_, hnext⟩ := h m.events hrefl
    change (m.events.append id expected batch).2.Decided ∧
      m.events.Grows (m.events.append id expected batch).2 ∧
      ∃ stage', (next (m.events.append id expected batch).1).Guided command post
        (m.events.append id expected batch).2 stage'
    cases happend : (m.events.append id expected batch).1 with
    | error error =>
      rw [EventLog.append_error happend]
      simp only [happend] at hnext
      exact ⟨hlog, hrefl, _, hnext⟩
    | ok committed =>
      simp only [happend] at hnext
      obtain ⟨hcarries, hextended, hnext⟩ := hnext
      rw [hextended]
      exact ⟨hlog.extend hcarries, .extend hlog.lawful hcarries, _, hnext⟩

/-- Writers that are guided by commands, and have committed only what commands decide. -/
structure Deciding (p : Pipeline α) (writings : List (Writing α)) : Prop where
  plans : p.writers.plans = writings.map Writing.plan
  attends : Memory.followerModel.Attends p.registry
  decided : p.log.Decided
  guided : ∀ w ∈ writings, ∃ command post stage, w.rest.Guided command post p.log stage

theorem Deciding.write (h : p.Deciding writings) (index : Nat) :
    ∃ writings', (p.turn (.write index)).Deciding writings' := by
  rcases write_cases h.plans index with hidle | ⟨before, w, after, w', m', rfl, hturn, heq⟩
  · rw [hidle]
    exact ⟨writings, h⟩
  rw [heq]
  have hguided := h.guided
  rw [List.forall_mem_append, List.forall_mem_cons] at hguided
  obtain ⟨hbefore, ⟨command, post, stage, hw⟩, hafter⟩ := hguided
  suffices m'.events.Decided ∧ p.log.Grows m'.events ∧
      ∃ stage', w'.rest.Guided command post m'.events stage' by
    obtain ⟨hdecided, hgrows, hw'⟩ := this
    have hlater : ∀ w : Writing α, (∃ command post stage, w.rest.Guided command post p.log stage) →
        ∃ command post stage, w.rest.Guided command post m'.events stage := by
      rintro w ⟨command, post, stage, hw⟩
      exact ⟨command, post, stage, hw.grows hgrows⟩
    refine ⟨before ++ w' :: after, rfl, h.attends, hdecided, ?_⟩
    rw [List.forall_mem_append, List.forall_mem_cons]
    exact ⟨fun w hmem => hlater w (hbefore w hmem), ⟨command, post, hw'⟩,
      fun w hmem => hlater w (hafter w hmem)⟩
  cases hturn with
  | done | publishes => exact ⟨h.decided, .refl h.decided.lawful, stage, hw⟩
  | asks => exact guided_answer h.decided hw

theorem Deciding.follow (h : p.Deciding writings) : p.follow.Deciding writings := by
  obtain ⟨hplans, hlog, hattends⟩ := follow_frame h.attends
  constructor
  · exact hplans.trans h.plans
  · exact hattends
  · rw [hlog]
    exact h.decided
  · rw [hlog]
    exact h.guided

/-- Writers that are guided by commands commit only what commands decide. -/
theorem run_decided (ids : Nat → Uuid) {plans : List (HandlerPlan α)}
    (hplans : ∀ plan ∈ plans, ∃ command post, plan.Guided command post .empty .waiting)
    (turns : List Turn) : ((start ids plans).run turns).log.Decided := by
  have hstart : ∃ writings, (start ids plans).Deciding writings := by
    refine ⟨_, (balanced_start ids plans).plans, ⟨_, rfl⟩, EventLog.Decided.empty, ?_⟩
    rw [List.forall_mem_map]
    intro plan hmem
    obtain ⟨command, post, hguided⟩ := hplans plan hmem
    exact ⟨command, post, _, hguided⟩
  generalize start ids plans = p at hstart
  obtain ⟨writings, h⟩ := hstart
  induction turns generalizing p writings with
  | nil => exact h.decided
  | cons turn turns ih =>
    cases turn with
    | write index =>
      obtain ⟨writings', h'⟩ := h.write index
      exact ih _ writings' h'
    | follow => exact ih _ writings h.follow

end Pipeline

/-- Several writers publish what they commit, and a follower that has subscribed before the
first of them feeds what it receives to its registry, in whatever order the steps of all of
them come. At any time the follower has received a part of the committed events, each once;
when all have come to their results, it has received all of them. And once it has, its rows
are those of the commits in their order, every cursor is at the end of its stream, and nothing
is parked or failed, if all batches were decided by profiles. -/
theorem Pipeline.run_converges {α : Type} (ids : Nat → Uuid) (plans : List (HandlerPlan α))
    (turns : List Turn) :
    let after := (start ids plans).run turns
    (∃ pending, (after.received ++ pending).Perm after.log.envelopes) ∧
      (after.IsFinished → after.received.Perm after.log.envelopes) ∧
      (after.received.Perm after.log.envelopes → after.log.Decided → after.Converged) := by
  intro after
  have hstart := balanced_start ids plans
  obtain ⟨_, queue, writings, hbalanced⟩ := hstart.run turns
  refine ⟨⟨_, hbalanced.account⟩, hbalanced.received_perm, fun hall hdecided => ?_⟩
  have hheard : Memory.followerModel.Hears after.log [] (start ids plans).registry (start ids plans).memory :=
    RowModel.Hears.start rfl rfl trivial .new
  have hhears := hstart.hears hdecided.lawful hheard rfl
  have hmem : ∀ e ∈ after.log.envelopes, e ∈ after.received := fun e => hall.mem_iff.mpr
  have hend := hhears.atEnd hdecided.lawful hmem
  exact {
    rows := hhears.eq_ofCommits hdecided.lawful hmem
    cursors := hend
    parked := hhears.tracked.parked_atEnd hdecided.lawful hend
    failures := hhears.failures }

/-- A profile is added and then minted, but the second event comes to the bus first. To add the
profile once more is rejected. -/
theorem Pipeline.run_converges_crossing :
    let time : Timestamp := ⟨⟨2021, 3, 4, by decide, by decide⟩, ⟨5, 6, 7, 8, by decide, by decide,
      by decide, by decide⟩, by decide⟩
    let add : ProfileCommand := .add (some ⟨⟨1⟩⟩) ⟨⟨2⟩⟩ time
    let plans := [add, .act ⟨⟨1⟩⟩ (.mint .inPerson) time, add].map (HandlerPlan.handle (.immediate 1))
    let turns := [0, 0, 1, 1, 1, 1, 2, 2, 2, 0, 0, 0, 1, 1].map Turn.write ++ [.follow, .follow]
    let after := (start .timeOrdered plans).run turns
    after.IsFinished ∧ after.received.map Envelope.sequenceNumber = [2, 1] ∧
      after.received.Perm after.log.envelopes ∧ after.log.Decided ∧ after.Converged := by
  intro time add plans turns after
  have hfinished : after.IsFinished := ⟨by decide +kernel, by decide +kernel⟩
  have hdecided : after.log.Decided := by
    apply run_decided
    rw [List.forall_mem_map]
    exact fun command _ => ⟨command, _, HandlerPlan.guided_handle _ command .empty⟩
  obtain ⟨_, hreceived, hconverged⟩ := run_converges .timeOrdered plans turns
  exact ⟨hfinished, by decide +kernel, hreceived hfinished, hdecided,
    hconverged (hreceived hfinished) hdecided⟩

end IdentityLedger
