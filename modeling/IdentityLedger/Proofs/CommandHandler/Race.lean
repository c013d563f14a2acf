import IdentityLedger.Proofs.CommandHandler.Plan
import IdentityLedger.Proofs.CommandHandler.Written

/-!
# Handlers in a race

Any number of commands are handled on one log at once, by handlers of any policies. They
take turns in any order, and a turn is a single request. Seen from a handler, what happens
between its turns is a schedule of what others add; so every log that a race leaves is one
that handlers write.
-/
namespace IdentityLedger

/-- A handler at work on a command: what is left of its plan, and its own supplies. -/
structure Contender where
  plan : HandlerPlan (Except DispatchError CommandOutcome)
  ids : Nat → Uuid
  issued : Nat
  journal : List JournalRecord

/-- A command that is given to a handler, with the ids that will be drawn for it. -/
structure HandlerCall where
  retry : RetryPolicy
  command : ProfileCommand
  ids : Nat → Uuid

namespace Contender

def start (call : HandlerCall) : Contender := ⟨.handle call.retry call.command, call.ids, 0, []⟩

def turn (c : Contender) (log : EventLog) : EventLog × Contender :=
  match c.plan with
  | .done _ => (log, c)
  | .ask request next =>
    let (given, w) := HandlerRequest.answer (EventLog.store SharedLog.logCell) request
      ⟨log, [], c.ids, c.issued, c.journal⟩
    (w.log, ⟨next given, w.ids, w.issued, w.journal⟩)

end Contender

structure Race where
  log : EventLog
  contenders : List Contender

namespace Race

def start (calls : List HandlerCall) : Race := ⟨.empty, calls.map Contender.start⟩

/-- One contender has its turn, the others wait. -/
def turn (race : Race) (index : Nat) : Race :=
  match race.contenders[index]? with
  | none => race
  | some c =>
    let (log, c) := c.turn race.log
    ⟨log, race.contenders.set index c⟩

def run (race : Race) (turns : List Nat) : Race := turns.foldl turn race

end Race

theorem EventLog.append_error {log : EventLog} {id : AggregateId} {expected : ExpectedVersion}
    {events : List NewEvent} {error : EventStoreError}
    (h : (log.append id expected events).1 = .error error) : (log.append id expected events).2 = log := by
  have hcases := log.append_cases id expected events
  generalize log.append id expected events = result at h hcases
  cases hcases with
  | refused => rfl
  | empty | stored => contradiction

namespace Contender
variable {c : Contender} {log start : EventLog} {seen : List (List AppendRequest)}
variable {since : List AppendRequest}

/-- A contender that has landed nothing: it is where handling its command is on a log that
others extended by what it has `seen`, request by request. -/
structure Open (c : Contender) (log start : EventLog) (seen : List (List AppendRequest))
    (since : List AppendRequest) : Prop where
  written : ∀ turns, (start.appendAll (seen.take turns).flatten).Written
  log_eq : log = (start.appendAll seen.flatten).appendAll since
  settles : HandlerPlan.Settles (fun _ => True) c.plan
  performs : ∃ retry command ids issued journal, ∀ rest,
    CommandHandler.handle ⟨SharedLog.store, retry⟩ command
        ⟨start, seen ++ rest, ids, issued, journal⟩ =
      c.plan.perform (HandlerRequest.answer SharedLog.store)
        ⟨start.appendAll seen.flatten, rest, c.ids, c.issued, c.journal⟩

theorem Open.later (h : c.Open log start seen since) (requests : List AppendRequest) :
    c.Open (log.appendAll requests) start seen (since ++ requests) where
  written := h.written
  log_eq := by rw [h.log_eq, EventLog.appendAll_append]
  settles := h.settles
  performs := h.performs

theorem open_start (h : log.Written) (call : HandlerCall) :
    (Contender.start call).Open log log [] [] where
  written _ := by
    rw [List.take_nil]
    exact h
  log_eq := rfl
  settles := HandlerPlan.settles_handle _ _
  performs := ⟨call.retry, call.command, call.ids, 0, [], fun rest => by
    rw [Contender.start, HandlerPlan.perform_handle]
    rfl⟩

theorem log_perform {α : Type} {good : α → Prop} {plan : HandlerPlan α}
    (h : HandlerPlan.Rests good plan) (w : SharedLog) :
    (plan.perform (HandlerRequest.answer SharedLog.store) w).2.log = w.log := by
  induction plan generalizing w with
  | done result => rfl
  | ask request next ih =>
    cases request with
    | fresh | note => exact ih _ (h.2 _) _
    | load | append => exact absurd trivial h.1

theorem Open.log_eq_seen (h : c.Open log start seen since) :
    log = start.appendAll (seen ++ [since]).flatten := by
  rw [h.log_eq, List.flatten_concat, EventLog.appendAll_append]

/-- All that a contender has seen once it has caught up, it could have seen of such logs. -/
theorem Open.written_seen (h : c.Open log start seen since) (hlog : log.Written) (turns : Nat) :
    (start.appendAll ((seen ++ [since]).take turns).flatten).Written := by
  rcases Nat.lt_or_ge seen.length turns with hall | hsome
  · have hlength : (seen ++ [since]).length ≤ turns := by
      rw [List.length_append]
      exact hall
    rw [List.take_of_length_le hlength, ← h.log_eq_seen]
    exact hlog
  · rw [List.take_append_of_le_length hsome]
    exact h.written turns

section Store
variable {request : HandlerRequest}
variable {next : request.Answer → HandlerPlan (Except DispatchError CommandOutcome)}

/-- A request of the store is answered as the handler would be with all that was added
since its last one before it. -/
theorem Open.performs_turn (h : c.Open log start seen since) (hplan : c.plan = .ask request next)
    (hstore : request.IsOfStore) :
    ∃ retry command ids issued journal, ∀ rest,
      CommandHandler.handle ⟨SharedLog.store, retry⟩ command
          ⟨start, (seen ++ [since]) ++ rest, ids, issued, journal⟩ =
        (c.turn log).2.plan.perform (HandlerRequest.answer SharedLog.store)
          ⟨(c.turn log).1, rest, (c.turn log).2.ids, (c.turn log).2.issued, (c.turn log).2.journal⟩ := by
  obtain ⟨retry, command, ids, issued, journal, hperforms⟩ := h.performs
  refine ⟨retry, command, ids, issued, journal, fun rest => ?_⟩
  rw [List.append_assoc, List.singleton_append, hperforms, turn, hplan, h.log_eq]
  cases request with
  | load | append => rfl
  | fresh | note => exact hstore.elim

theorem Open.reload (h : c.Open log start seen since) (hlog : log.Written)
    (hplan : c.plan = .ask request next) (hstore : request.IsOfStore)
    (hsame : (c.turn log).1 = log)
    (hsettles : HandlerPlan.Settles (fun _ => True) (c.turn log).2.plan) :
    (c.turn log).2.Open log start (seen ++ [since]) [] where
  written := h.written_seen hlog
  log_eq := h.log_eq_seen
  settles := hsettles
  performs := by
    have hperforms := h.performs_turn hplan hstore
    rw [hsame] at hperforms
    rw [← h.log_eq_seen]
    exact hperforms

/-- A request that is answered for good: the contender leaves what handling its command
leaves, since a plan that rests adds nothing more. -/
theorem Open.lands (h : c.Open log start seen since) (hlog : log.Written)
    (hplan : c.plan = .ask request next) (hstore : request.IsOfStore)
    (hrests : HandlerPlan.Rests (fun _ => True) (c.turn log).2.plan) : (c.turn log).1.Written := by
  obtain ⟨retry, command, ids, issued, journal, hperforms⟩ := h.performs_turn hplan hstore
  have hfinal : _ = (c.turn log).1 := log_perform hrests
    ⟨_, [], (c.turn log).2.ids, (c.turn log).2.issued, (c.turn log).2.journal⟩
  rw [← hperforms, List.append_nil] at hfinal
  rw [← hfinal]
  exact EventLog.Written.handle (h.written_seen hlog) retry command

end Store

/-- What holds of every contender: it has landed nothing yet, or it asks for nothing more. -/
def Fair (c : Contender) (log : EventLog) : Prop :=
  HandlerPlan.Rests (fun _ => True) c.plan ∨ ∃ start seen since, c.Open log start seen since

theorem Fair.later (h : c.Fair log) (requests : List AppendRequest) :
    c.Fair (log.appendAll requests) := by
  rcases h with hrests | ⟨start, seen, since, hopen⟩
  · exact .inl hrests
  · exact .inr ⟨start, seen, _, hopen.later requests⟩

theorem exists_appendAll_turn (c : Contender) (log : EventLog) :
    ∃ requests, (c.turn log).1 = log.appendAll requests := by
  rw [turn]
  split
  · exact ⟨[], rfl⟩
  · rename_i request next _
    cases request with
    | append id expected events => exact ⟨[⟨id, expected, events⟩], rfl⟩
    | _ => exact ⟨[], rfl⟩

theorem Open.turn (h : c.Open log start seen since) (hlog : log.Written) :
    (c.turn log).1.Written ∧ (c.turn log).2.Fair (c.turn log).1 := by
  have hsettles := h.settles
  obtain ⟨plan, ids, issued, journal⟩ := c
  cases plan with
  | done result => exact ⟨hlog, .inr ⟨start, seen, since, h⟩⟩
  | ask request next =>
    cases request with
    | fresh | note =>
      exact ⟨hlog, .inr ⟨start, seen, since, h.written, h.log_eq, (hsettles _).2 id, h.performs⟩⟩
    | load id =>
      exact ⟨hlog, .inr ⟨start, _, [], h.reload hlog rfl trivial rfl ((hsettles _).2 fun hlands => hlands)⟩⟩
    | append id expected events =>
      have hgiven := hsettles (log.append id expected events).1
      cases hresult : (log.append id expected events).1 with
      | error error =>
        have hsame : (Contender.turn ⟨.ask (.append id expected events) next, ids, issued, journal⟩
            log).1 = log := EventLog.append_error hresult
        have hrefused : ¬(log.append id expected events).1.isOk = true := by
          rw [hresult]
          nofun
        have hopen := h.reload hlog rfl trivial hsame (hgiven.2 hrefused)
        rw [hsame]
        exact ⟨hlog, .inr ⟨start, _, [], hopen⟩⟩
      | ok committed =>
        have hrests := hgiven.1 (by rw [hresult]; rfl)
        exact ⟨h.lands hlog rfl trivial hrests, .inl hrests⟩

theorem rests_turn (h : HandlerPlan.Rests (fun _ => True) c.plan) (log : EventLog) :
    (c.turn log).1 = log ∧ HandlerPlan.Rests (fun _ => True) (c.turn log).2.plan := by
  obtain ⟨plan, ids, issued, journal⟩ := c
  cases plan with
  | done result => exact ⟨rfl, h⟩
  | ask request next =>
    cases request with
    | fresh | note => exact ⟨rfl, h.2 _⟩
    | load | append => exact absurd trivial h.1

theorem Fair.turn (h : c.Fair log) (hlog : log.Written) :
    (c.turn log).1.Written ∧ (c.turn log).2.Fair (c.turn log).1 := by
  rcases h with hrests | ⟨start, seen, since, hopen⟩
  · obtain ⟨hsame, hnext⟩ := rests_turn hrests log
    rw [hsame]
    exact ⟨hlog, .inl hnext⟩
  · exact hopen.turn hlog

end Contender

namespace Race

theorem turn_written {race : Race} (hlog : race.log.Written)
    (hfair : ∀ c ∈ race.contenders, c.Fair race.log) (index : Nat) :
    (race.turn index).log.Written ∧ ∀ c ∈ (race.turn index).contenders, c.Fair (race.turn index).log := by
  rw [turn]
  split
  · exact ⟨hlog, hfair⟩
  · rename_i c hc
    obtain ⟨hwritten, hturn⟩ := (hfair c (List.mem_of_getElem? hc)).turn hlog
    obtain ⟨requests, hrequests⟩ := c.exists_appendAll_turn race.log
    refine ⟨hwritten, fun other hmem => ?_⟩
    rcases List.mem_or_eq_of_mem_set hmem with hwaits | rfl
    · change other.Fair (c.turn race.log).1
      rw [hrequests]
      exact (hfair other hwaits).later requests
    · exact hturn

/-- However handlers interleave on a log, they write it. -/
theorem run_written (calls : List HandlerCall) (turns : List Nat) :
    ((start calls).run turns).log.Written := by
  have hstart : (start calls).log.Written ∧ ∀ c ∈ (start calls).contenders, c.Fair (start calls).log := by
    refine ⟨.empty, fun c hmem => ?_⟩
    obtain ⟨call, _, rfl⟩ := List.mem_map.mp hmem
    exact .inr ⟨_, _, _, Contender.open_start .empty call⟩
  generalize start calls = race at hstart
  induction turns generalizing race with
  | nil => exact hstart.1
  | cons index turns ih => exact ih _ (turn_written hstart.1 hstart.2 index)

end Race

end IdentityLedger
