import IdentityLedger.Proofs.CommandHandler.Cycle

/-!
# Commands under competing writers

A shared log comes with a schedule of what other writers request next: the first entry
falls before the handler's next load or append, whichever it is. Every schedule is
allowed, and so is every policy of retries. An accepted command is nevertheless the
effect of its decision on the log as it was when its batch landed, and a rejected one
leaves the log to the others.
-/
namespace IdentityLedger

structure SharedLog where
  log : EventLog
  schedule : List (List AppendRequest)
  ids : Nat → Uuid
  issued : Nat
  /-- Newest record first. -/
  journal : List JournalRecord

namespace SharedLog

instance : Journal SharedLog := ⟨fun record w => { w with journal := record :: w.journal }⟩

instance : IdSupply SharedLog := ⟨fun w => (w.ids w.issued, { w with issued := w.issued + 1 })⟩

def logCell : Cell SharedLog EventLog := ⟨SharedLog.log, fun log w => { w with log }⟩

def turn (w : SharedLog) : SharedLog :=
  match w.schedule with
  | [] => w
  | requests :: schedule => { w with log := w.log.appendAll requests, schedule }

def store : EventStore SharedLog where
  append id expected events w := (EventLog.store logCell).append id expected events w.turn
  loadStream id w := (EventLog.store logCell).loadStream id w.turn
  loadAll w := (EventLog.store logCell).loadAll w.turn

def Idle (a b : SharedLog) : Prop := b.log = a.log ∧ b.schedule = a.schedule

/-- The other writers have carried out a part of their schedule, and nothing else was added. -/
def Others (a b : SharedLog) : Prop :=
  ∃ seen, a.schedule = seen ++ b.schedule ∧ b.log = a.log.appendAll seen.flatten

theorem others_of_idle {a b : SharedLog} (h : Idle a b) : Others a b :=
  ⟨[], h.2.symm, h.1⟩

theorem others_trans {a b c : SharedLog} (hab : Others a b) (hbc : Others b c) : Others a c := by
  obtain ⟨first, hfirst, hlog⟩ := hab
  obtain ⟨rest, hrest, hlog'⟩ := hbc
  refine ⟨first ++ rest, ?_, ?_⟩
  · rw [hfirst, hrest, List.append_assoc]
  · rw [hlog', hlog, List.flatten_append, EventLog.appendAll_append]

theorem others_turn (w : SharedLog) : Others w w.turn := by
  rw [turn]
  split
  · exact others_of_idle ⟨rfl, rfl⟩
  · rename_i requests schedule hschedule
    exact ⟨[requests], hschedule, by simp⟩

theorem sharedStore : SharedStore store logCell Idle Others where
  idle_frame := ⟨fun _ => ⟨rfl, rfl⟩,
    fun hab hbc => ⟨hbc.1.trans hab.1, hbc.2.trans hab.2⟩, fun _ _ => ⟨rfl, rfl⟩⟩
  fresh _ := ⟨rfl, rfl⟩
  others_frame := ⟨fun _ => others_of_idle ⟨rfl, rfl⟩, others_trans,
    fun _ _ => others_of_idle ⟨rfl, rfl⟩⟩
  others_of_idle := others_of_idle
  requests h := h.elim fun seen hseen => ⟨seen.flatten, hseen.2⟩
  set_get _ := rfl
  load _ w := ⟨w.turn, others_turn w, rfl⟩
  append _ _ _ w := ⟨w.turn, others_turn w, rfl⟩

end SharedLog

/-- The version of the stream before the events of an outcome. -/
def CommandOutcome.base (outcome : CommandOutcome) : Nat :=
  outcome.version - outcome.committed.length

/-- The outcome of a command that is handled while nobody else writes to a log, and the log
it leaves: the events are those that the command decides on the stream up to its base, and
they follow there. -/
structure Serial (log : EventLog) (command : ProfileCommand) (outcome : CommandOutcome)
    (after : EventLog) : Prop where
  target : ∀ id, command.target.aggregateId = some id → id = outcome.aggregateId
  after_eq : after = log.extend outcome.aggregateId outcome.committed
  version_eq : outcome.version = outcome.base + outcome.committed.length
  numbered : outcome.committed.map StoredEvent.sequenceNumber =
    List.range' (outcome.base + 1) outcome.committed.length
  contiguous : (after.stream outcome.aggregateId).drop outcome.base = outcome.committed
  decided : ∃ p events, Repository.applyStored (.blank outcome.aggregateId)
      ((after.stream outcome.aggregateId).take outcome.base) = .ok p ∧
    (p.execute command).1 = .ok events ∧
    outcome.committed.map StoredEvent.payload = events.map ProfileEvent.toJson

theorem EventLog.getLast?_number (version : Nat) {batch : List NewEvent} (hbatch : batch ≠ []) :
    (number (version + 1) batch).getLast?.map StoredEvent.sequenceNumber =
      some (version + batch.length) := by
  have hlength : batch.length ≠ 0 := by simpa using hbatch
  rw [← List.getLast?_map, sequenceNumber_number, List.getLast?_range', if_neg hlength]
  congr 1
  omega

/-- A batch that carries out a command leaves what the command leaves on its own. -/
theorem CarriesOut.serial {log : EventLog} {id : AggregateId} {command : ProfileCommand}
    {committed : List StoredEvent} (h : CarriesOut log id command committed)
    (htarget : ∀ target, command.target.aggregateId = some target → target = id) (attempts : Nat) :
    Serial log command (CommandHandler.outcome id attempts committed) (log.extend id committed) := by
  obtain ⟨p, events, batch, hreplayed, hdecided, _, hevents, hwraps⟩ := h
  have hbatch : batch ≠ [] := by
    intro hnil
    rw [hnil] at hwraps
    exact hevents (List.forall₂_nil_right_iff.mp hwraps)
  have hpayloads := Repository.map_payload_number hwraps ((log.stream id).length + 1)
  have hnumbers := EventLog.sequenceNumber_number ((log.stream id).length + 1) batch
  have hlast := EventLog.getLast?_number (log.stream id).length hbatch
  have hlength := EventLog.length_number ((log.stream id).length + 1) batch
  generalize EventLog.number ((log.stream id).length + 1) batch = committed at *
  have hversion : (CommandHandler.outcome id attempts committed).version =
      (log.stream id).length + committed.length := by
    rw [CommandHandler.outcome, hlast, hlength, Option.getD_some]
  have hbase : (CommandHandler.outcome id attempts committed).base = (log.stream id).length := by
    rw [CommandOutcome.base, hversion]
    exact Nat.add_sub_cancel _ _
  have hstream : (log.extend id committed).stream id = log.stream id ++ committed := by
    rw [EventLog.stream_extend, if_pos rfl]
  constructor
  · exact htarget
  · rfl
  · rw [hversion, hbase]
    rfl
  · rw [hbase]
    exact hnumbers.trans (by rw [← hlength]; rfl)
  · rw [hbase]
    exact (congrArg _ hstream).trans List.drop_left
  · refine ⟨p, events, ?_, congrArg Prod.fst (Profile.execute_eq hdecided), hpayloads⟩
    rw [hbase]
    change Repository.applyStored (.blank id) (List.take _ ((log.extend id committed).stream id)) = _
    rw [hstream, List.take_left, hreplayed]

/-- Accepted commands are serializable under competing writers, and rejected ones add nothing. -/
theorem handle_serializable (history : List AppendRequest) (schedule : List (List AppendRequest))
    (ids : Nat → Uuid) (issued : Nat) (journal : List JournalRecord) (retry : RetryPolicy)
    (command : ProfileCommand) :
    let before : SharedLog := ⟨EventLog.empty.appendAll history, schedule, ids, issued, journal⟩
    let (result, after) := CommandHandler.handle ⟨SharedLog.store, retry⟩ command before
    ∃ seen, seen <+: schedule ∧
      match result with
      | .error _ => after.log = before.log.appendAll seen.flatten
      | .ok outcome => Serial (before.log.appendAll seen.flatten) command outcome after.log := by
  intro before
  have hcons : before.log.Consistent := EventLog.Consistent.empty.appendAll history
  obtain ⟨id, attempts, result, after, htarget, hhandle, hlands⟩ :=
    SharedLog.sharedStore.handle_spec retry command (w := before) hcons
  rw [hhandle]
  cases result with
  | error error =>
    obtain ⟨seen, hschedule, hlog⟩ := hlands
    exact ⟨seen, ⟨_, hschedule.symm⟩, hlog⟩
  | ok committed =>
    obtain ⟨w, ⟨seen, hschedule, hlog⟩, hcarries, hidle⟩ := hlands
    have hafter : after.log = w.log.extend id committed := hidle.1
    refine ⟨seen, ⟨_, hschedule.symm⟩, ?_⟩
    change Serial _ _ _ after.log
    rw [hafter, ← hlog]
    exact hcarries.serial htarget attempts

end IdentityLedger
