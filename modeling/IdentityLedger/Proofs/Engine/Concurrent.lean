import IdentityLedger.Proofs.CommandHandler.Race
import IdentityLedger.Proofs.Engine.Promised
import IdentityLedger.Proofs.Pool

/-!
# Commands handled at once

Any number of commands are handled at once by a synchronous engine in memory. They take turns
in any order, and a turn is a single request: a load, an append, the dispatch of one event, a
look at the rows. In the end no user has two active profiles, if no activated profile has
parked events while its siblings are looked for.

Without this condition it can happen: an activation is parked behind an event that another
command has committed and not dispatched yet. While it is, the rows show neither of two
profiles to the other.
-/
namespace IdentityLedger

/-- Plans of a synchronous engine, with the memory and the registry that they share. -/
abbrev EnginePool :=
  Pool EngineRequest.Answer (Memory × Registry Memory) (Except DispatchError CommandOutcome)

namespace EnginePool

def answer : (request : EngineRequest) → StateM (Memory × Registry Memory) request.Answer :=
  EngineRequest.answer (EventLog.store Memory.eventCell) (RowTable.store Memory.rowCell)

/-- Commands that an engine is to handle at once, on a memory that is empty. -/
def start (ids : Nat → Uuid) (retry : RetryPolicy) (commands : List ProfileCommand) : EnginePool :=
  ⟨({ Memory.empty with ids }, Engine.profileRegistry), commands.map (EnginePlan.handle retry)⟩

/-- Where the siblings of a profile are looked for, none of its events is parked. -/
def isPrompt : Memory × Registry Memory → EngineRequest → Bool
  | (_, reg), .list id => reg.runners.all fun r => r.backlog.envelopes.all fun e => e.aggregateId ≠ id
  | _, _ => true

/-- The requests of a run that leaves no sibling active: they look at the rows when what has been
activated is not parked, and who is asked to step down does not lose every race. -/
def allows (w : Memory × Registry Memory) (request : EngineRequest) : Bool :=
  isPrompt w request && request.isPatient

def Kept (pool : EnginePool) : Prop :=
  ∃ log promises heard, Promised log promises heard pool.state.2 pool.state.1 ∧
    List.Forall₂ (fun p plan => EnginePlan.Keeps log p plan) promises pool.plans

theorem kept_start (ids : Nat → Uuid) (retry : RetryPolicy) (commands : List ProfileCommand) :
    (start ids retry commands).Kept := by
  refine ⟨.empty, commands.map fun _ => ⟨[], [], []⟩, [], .start ids ?_, ?_⟩
  · rw [List.forall_mem_map]
    exact fun _ _ => rfl
  · rw [start, List.forall₂_map_left_iff, List.forall₂_map_right_iff, List.forall₂_same]
    exact fun command _ => EnginePlan.keeps_handle retry command .empty

theorem keeps_turn {α : Type} {log : EventLog} {before after : List Promise} {p : Promise}
    {heard : List (Envelope Json)} {reg : Registry Memory} {m : Memory} {plan : EnginePlan α}
    (h : Promised log (before ++ p :: after) heard reg m) (hkeeps : plan.Keeps log p)
    (hallowed : plan.asksFor (allows (m, reg)) = true) :
    let step := plan.turn answer (m, reg)
    ∃ log' p' heard', log.Grows log' ∧ Promised log' (before ++ p' :: after) heard' step.2.2 step.2.1 ∧
      EnginePlan.Keeps log' p' step.1 := by
  obtain rfl := h.events
  have hrefl := EventLog.Grows.refl h.lawful
  have hstays : p.Loads m.events p := ⟨rfl, rfl, fun _ => .inl⟩
  cases plan with
  | done result => exact ⟨_, p, heard, hrefl, h, hkeeps⟩
  | ask request next =>
    rw [Plan.asksFor, allows, Bool.and_eq_true] at hallowed
    cases request with
    | plain request =>
      cases request with
      | fresh => exact ⟨_, p, heard, hrefl, h.loads hstays ⟨rfl, rfl, rfl⟩, hkeeps _⟩
      | note record => exact ⟨_, p, heard, hrefl, h.loads hstays ⟨rfl, rfl, rfl⟩, hkeeps _⟩
      | load id =>
        obtain ⟨p', hloads, hnext⟩ := hkeeps m.events hrefl
        exact ⟨_, p', heard, hrefl, h.loads hloads ⟨rfl, rfl, rfl⟩, hnext⟩
      | append id expected events =>
        have hnext := hkeeps m.events hrefl
        change ∃ log' p' heard', m.events.Grows log' ∧
          Promised log' (before ++ p' :: after) heard' reg
            { m with events := (m.events.append id expected events).2 } ∧
          EnginePlan.Keeps log' p' (next (m.events.append id expected events).1)
        cases happend : (m.events.append id expected events).1 with
        | error error =>
          rw [EventLog.append_error happend]
          simp only [happend] at hnext
          exact ⟨_, p, heard, hrefl, h, hnext⟩
        | ok committed =>
          simp only [happend] at hnext
          obtain ⟨command, p', hcarries, hextended, hlands, hnext⟩ := hnext
          rw [hextended]
          exact ⟨_, p', heard, .extend h.lawful hcarries, h.lands hcarries hlands, hnext⟩
    | dispatch e =>
      obtain ⟨stored, todo, rfl, htodo, hnext⟩ := hkeeps
      exact ⟨_, { p with todo }, _, hrefl, h.dispatch htodo, hnext _⟩
    | list id =>
      obtain ⟨p', hlists, hnext⟩ := hkeeps m.events hrefl m.rows.values
      refine ⟨_, p', heard, hrefl, h.lists hlists ?_, hnext⟩
      simpa [isPrompt] using hallowed.1
    | tell activation result =>
      have hquiet := Engine.tell_frame Memory.Quiet.frame activation result m
      exact ⟨_, p, heard, hrefl, h.loads hstays hquiet, hkeeps hallowed.2⟩

variable {pool : EnginePool}

theorem Kept.turn (h : pool.Kept) {index : Nat}
    (hallowed : (pool.plans[index]?.all fun plan => plan.asksFor (allows pool.state)) = true) :
    Kept (pool.turn answer index) := by
  obtain ⟨log, promises, heard, hpromised, hkeeps⟩ := h
  have hturns := pool.turn_cases answer index
  generalize pool.turn answer index = next at hturns
  cases hturns with
  | idle => exact ⟨log, promises, heard, hpromised, hkeeps⟩
  | taken first rest plan hplans hindex =>
    rw [hplans] at hkeeps
    rw [hindex] at hallowed
    obtain ⟨before, p, after, rfl, hbefore, hplan, hafter⟩ := Pool.split_of_forall₂ hkeeps
    obtain ⟨log', p', heard', hgrows, hpromised, hplan⟩ := keeps_turn hpromised hplan hallowed
    refine ⟨log', _, heard', hpromised, List.rel_append ?_ (.cons hplan ?_)⟩
    · exact hbefore.imp fun _ _ hkeeps => hkeeps.grows hgrows
    · exact hafter.imp fun _ _ hkeeps => hkeeps.grows hgrows

theorem Kept.run (h : pool.Kept) {turns : List Nat} (hallowed : pool.obeys answer allows turns = true) :
    Kept (pool.run answer turns) := by
  induction turns generalizing pool with
  | nil => exact h
  | cons index turns ih =>
    rw [Pool.obeys, Bool.and_eq_true] at hallowed
    exact ih (h.turn hallowed.1) hallowed.2

theorem Kept.singleActive (h : pool.Kept) (hdone : pool.IsDone) (retry : RetryPolicy) :
    (Engine.synchronous retry).SingleActive pool.state.1 := by
  obtain ⟨log, promises, heard, hpromised, hkeeps⟩ := h
  have hnone : ∀ p ∈ promises, p = ⟨[], [], []⟩ := by
    intro p hmem
    obtain ⟨plan, hplan, hkept⟩ := exists_of_mem_right (List.Forall₂.flip (R := flip _) hkeeps) hmem
    have hplanDone := hdone plan hplan
    cases plan with
    | done result => exact hkept
    | ask => contradiction
  refine (hpromised.current hnone).singleActive retry ?_
  rw [hpromised.events]
  exact hpromised.singleActive hnone

theorem pairwise_rows {retry : RetryPolicy} {m : Memory}
    (h : (Engine.synchronous retry).SingleActive m) :
    m.rows.values.Pairwise fun a b => a.userId = b.userId → ¬(a.active = true ∧ b.active = true) := by
  obtain ⟨rows, hlisted, hpairwise⟩ := h.listed
  cases hlisted
  exact hpairwise

def rivals : List ProfileCommand :=
  let time : Timestamp := ⟨⟨2024, 2, 29, by decide, by decide⟩, ⟨1, 2, 3, 4, by decide, by decide,
    by decide, by decide⟩, by decide⟩
  [.add (some ⟨⟨1⟩⟩) ⟨⟨3⟩⟩ time, .act ⟨⟨1⟩⟩ (.mint .inPerson) time, .add (some ⟨⟨2⟩⟩) ⟨⟨3⟩⟩ time,
    .act ⟨⟨2⟩⟩ (.mint .inPerson) time, .act ⟨⟨1⟩⟩ .activate time, .act ⟨⟨2⟩⟩ .activate time]

def inRow (turns : List (Nat × Nat)) : List Nat :=
  turns.flatMap fun (index, times) => List.replicate times index

/-- Whatever commands an engine handles at once, and in whatever order their turns come: when
all of them have returned, no user has two active profiles, neither in the streams nor in the
rows, if none that was asked to step down has lost every race, and no activated profile has had
a parked event while its siblings were looked for. -/
theorem run_singleActive (ids : Nat → Uuid) (retry : RetryPolicy) (commands : List ProfileCommand)
    (turns : List Nat) (hallowed : (start ids retry commands).obeys answer allows turns = true)
    (hdone : ((start ids retry commands).run answer turns).IsDone) :
    (Engine.synchronous retry).SingleActive ((start ids retry commands).run answer turns).state.1 :=
  ((kept_start ids retry commands).run hallowed).singleActive hdone retry

/-- Both activations are committed before either of them is dispatched. The profile whose
siblings are looked for last stays active. -/
theorem run_singleActive_rivals :
    let turns := inRow [(0, 5), (1, 6), (2, 5), (3, 6), (4, 5), (5, 8), (4, 10)]
    (start .timeOrdered (.immediate 3) rivals).obeys answer allows turns = true ∧
      ((start .timeOrdered (.immediate 3) rivals).run answer turns).IsDone ∧
      ((start .timeOrdered (.immediate 3) rivals).run answer turns).state.1.rows.values.map
        ProfileRow.active = [true, false] ∧
      (Engine.synchronous (.immediate 3)).SingleActive
        ((start .timeOrdered (.immediate 3) rivals).run answer turns).state.1 := by
  intro turns
  obtain ⟨hallowed, hdone, hrows⟩ :
      (start .timeOrdered (.immediate 3) rivals).obeys answer allows turns = true ∧
        ((start .timeOrdered (.immediate 3) rivals).run answer turns).IsDone ∧
        ((start .timeOrdered (.immediate 3) rivals).run answer turns).state.1.rows.values.map
          ProfileRow.active = [true, false] := by
    decide +kernel
  exact ⟨hallowed, hdone, hrows, run_singleActive .timeOrdered (.immediate 3) rivals turns hallowed hdone⟩

/-- The minting of one profile is dispatched last. Until then its activation is parked, so the
other one is activated without finding it, and in the end both are active. -/
theorem run_misses_parked :
    let turns := inRow [(0, 5), (1, 6), (2, 5), (3, 5), (5, 8), (4, 8), (3, 1)]
    let after := (start .timeOrdered (.immediate 3) rivals).run answer turns
    (start .timeOrdered (.immediate 3) rivals).obeys answer (fun _ => EngineRequest.isPatient) turns =
        true ∧
      after.IsDone ∧ ¬(Engine.synchronous (.immediate 3)).SingleActive after.state.1 := by
  intro turns after
  obtain ⟨hpatient, hdone, hboth⟩ :
      (start .timeOrdered (.immediate 3) rivals).obeys answer (fun _ => EngineRequest.isPatient) turns =
          true ∧
        after.IsDone ∧ ¬after.state.1.rows.values.Pairwise fun a b =>
          a.userId = b.userId → ¬(a.active = true ∧ b.active = true) := by
    decide +kernel
  exact ⟨hpatient, hdone, fun hsingle => hboth (pairwise_rows hsingle)⟩

end EnginePool

end IdentityLedger
