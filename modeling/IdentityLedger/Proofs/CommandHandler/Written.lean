import IdentityLedger.Engine.Follower
import IdentityLedger.Proofs.CommandHandler.SharedLog

/-!
# Logs that commands write

In a log that is written by command handlers alone, every stream holds the events of one
profile, and each of them fits what happened to the profile before. Such streams load,
and they load to the replay of what they hold. What a command stores is held as it is read:
it is what the command decides at the time that is read for its own.
-/
namespace IdentityLedger

namespace EventLog

/-- The profile events that a stream holds. -/
def history (log : EventLog) (id : AggregateId) : List ProfileEvent :=
  (log.stream id).filterMap StoredEvent.profileEvent?

/-- Every stream holds a history of its profile in which each event fits. -/
structure Lawful (log : EventLog) : Prop where
  consistent : log.Consistent
  holds : ∀ id, List.Forall₂ (StoredEvent.Holds id) (log.history id) (log.stream id)
  fits : ∀ id, (Profile.blank id).Fits (log.history id)

theorem filterMap_of_holds {id : AggregateId} {events : List ProfileEvent}
    {stream : List StoredEvent} (h : List.Forall₂ (StoredEvent.Holds id) events stream) :
    stream.filterMap StoredEvent.profileEvent? = events := by
  induction h with
  | nil => rfl
  | cons hholds _ ih => rw [List.filterMap_cons, hholds.profileEvent?_eq, ih]

theorem Lawful.empty : Lawful .empty where
  consistent := .empty
  holds _ := .nil
  fits _ := trivial

theorem Lawful.length_history {log : EventLog} (h : log.Lawful) (id : AggregateId) :
    (log.history id).length = (log.stream id).length := (h.holds id).length_eq

theorem Lawful.replayStream_eq {log : EventLog} (h : log.Lawful) {id : AggregateId}
    (hstream : log.stream id ≠ []) :
    Repository.replayStream id (log.stream id) = .ok (.load id (log.history id)) := by
  refine Repository.replayStream_of_holds h.consistent (h.holds id) ?_
  intro hnil
  have hholds := h.holds id
  rw [hnil] at hholds
  exact hstream (List.forall₂_nil_left_iff.mp hholds)

theorem Lawful.isCreated {log : EventLog} (h : log.Lawful) {id : AggregateId}
    (hstream : log.stream id ≠ []) : (Profile.load id (log.history id)).isCreated = true := by
  by_contra hblank
  rw [Bool.not_eq_true] at hblank
  have hlength := h.length_history id
  rw [Profile.eq_nil_of_not_isCreated (h.fits id) hblank] at hlength
  exact hstream (List.eq_nil_of_length_eq_zero hlength.symm)

theorem Lawful.exists_userId {log : EventLog} (h : log.Lawful) {id : AggregateId}
    (hstream : log.stream id ≠ []) :
    ∃ userId, (Profile.load id (log.history id)).userId = some userId := by
  have hsome := Profile.isSome_userId_replay (p := .blank id) rfl (log.history id)
  exact Option.isSome_iff_exists.mp (hsome.trans (h.isCreated hstream))

theorem history_extend {log : EventLog} {id : AggregateId} {events : List ProfileEvent}
    {committed : List StoredEvent} (h : List.Forall₂ (StoredEvent.Holds id) events committed)
    (other : AggregateId) : (log.extend id committed).history other =
      if other = id then log.history id ++ events else log.history other := by
  rw [history, stream_extend]
  split
  · rw [List.filterMap_append, filterMap_of_holds h]
    rfl
  · rfl

theorem Lawful.applyStored_eq {log : EventLog} (h : log.Lawful) (id : AggregateId) :
    Repository.applyStored (.blank id) (log.stream id) = .ok (.load id (log.history id)) :=
  Repository.applyStored_of_holds (h.holds id) (.blank id)

theorem Lawful.asRead_load {log : EventLog} (h : log.Lawful) (id : AggregateId) :
    (Profile.load id (log.history id)).asRead = .load id (log.history id) := by
  rw [Profile.asRead_load, Repository.map_asRead_of_holds (h.holds id)]

/-- What a command stores is what it decides on the profile that has seen the stream. -/
theorem Lawful.decided {log : EventLog} (h : log.Lawful) {id : AggregateId}
    {command : ProfileCommand} {committed : List StoredEvent}
    (hcarries : CarriesOut log id command committed) :
    ∃ events, (Profile.load id (log.history id)).decide command.asRead = .ok events ∧
      (Profile.load id (log.history id)).Fits events ∧
      List.Forall₂ (StoredEvent.Holds id) events committed := by
  obtain ⟨p, events, batch, hreplayed, hdecided, hfits, hevents, hwraps⟩ := hcarries
  rw [h.applyStored_eq] at hreplayed
  cases hreplayed
  have hread := Profile.decide_asRead (h.asRead_load id) hdecided
  have hfits' := (Profile.fits_decide (fun _ => hfits.live hevents) hread).1
  exact ⟨_, hread, hfits', Repository.holds_number hwraps _⟩

/-- Carrying out a command keeps a log lawful. -/
theorem Lawful.extend {log : EventLog} (h : log.Lawful) {id : AggregateId}
    {command : ProfileCommand} {committed : List StoredEvent}
    (hcarries : CarriesOut log id command committed) : (log.extend id committed).Lawful := by
  obtain ⟨events, _, hfits, hholds⟩ := h.decided hcarries
  obtain ⟨_, _, batch, _, _, _, _, hwraps⟩ := hcarries
  constructor
  · exact h.consistent.extend fun event hmem => (Repository.uniform_of_wraps hwraps event hmem).1
  · intro other
    rw [history_extend hholds, stream_extend]
    split
    · rename_i hother
      rw [hother]
      exact List.rel_append (h.holds id) hholds
    · exact h.holds other
  · intro other
    rw [history_extend hholds]
    split
    · rename_i hother
      rw [hother]
      exact Profile.fits_append.mpr ⟨h.fits id, hfits⟩
    · exact h.fits other

end EventLog

namespace Memory

/-- The log, the rows and the cursors are as they were. -/
structure Quiet (a b : Memory) : Prop where
  events : b.events = a.events
  rows : b.rows = a.rows
  cursors : b.cursors = a.cursors

theorem Quiet.frame : Frame Quiet where
  refl _ := ⟨rfl, rfl, rfl⟩
  trans hab hbc := ⟨hbc.events.trans hab.events, hbc.rows.trans hab.rows, hbc.cursors.trans hab.cursors⟩
  note _ _ := ⟨rfl, rfl, rfl⟩

theorem sharedStore : SharedStore (EventLog.store eventCell) eventCell Quiet Quiet where
  idle_frame := Quiet.frame
  fresh _ := ⟨rfl, rfl, rfl⟩
  others_frame := Quiet.frame
  others_of_idle h := h
  requests h := ⟨[], h.events⟩
  set_get _ := rfl
  load _ m := ⟨m, Quiet.frame.refl m, rfl⟩
  append _ _ _ m := ⟨m, Quiet.frame.refl m, rfl⟩

/-- What handling a command does to a memory. -/
inductive Handled (m : Memory) (command : ProfileCommand) :
    Except DispatchError CommandOutcome × Memory → Prop
  | rejected (error : DispatchError) {m' : Memory} (hquiet : Quiet m m') :
      Handled m command (.error error, m')
  | accepted (id : AggregateId) (attempts : Nat) (committed : List StoredEvent) {m' : Memory}
      (hcarries : CarriesOut m.events id command committed)
      (hquiet : Quiet { m with events := m.events.extend id committed } m') :
      Handled m command (.ok (CommandHandler.outcome id attempts committed), m')

theorem handle_cases (retry : RetryPolicy) (command : ProfileCommand) {m : Memory}
    (hcons : m.events.Consistent) :
    Handled m command (CommandHandler.handle ⟨EventLog.store eventCell, retry⟩ command m) := by
  obtain ⟨id, attempts, result, m', _, hhandle, hlands⟩ :=
    sharedStore.handle_spec retry command (w := m) hcons
  rw [hhandle]
  cases result with
  | error error => exact .rejected error hlands
  | ok committed =>
    obtain ⟨seen, hseen, hcarries, hidle⟩ := hlands
    refine .accepted id attempts committed (hseen.events ▸ hcarries) ?_
    have hset : Quiet { m with events := m.events.extend id committed }
        { seen with events := seen.events.extend id committed } :=
      ⟨congrArg (·.extend id committed) hseen.events, hseen.rows, hseen.cursors⟩
    exact Quiet.frame.trans hset hidle

end Memory

/-- A log that is written by command handlers alone. Handlers may compete: what others add
while one is at work only has to make such logs in turn. -/
inductive EventLog.Written : EventLog → Prop
  | empty : Written .empty
  | handle {w : SharedLog}
      (written : ∀ turns, Written (w.log.appendAll (w.schedule.take turns).flatten))
      (retry : RetryPolicy) (command : ProfileCommand) :
      Written (CommandHandler.handle ⟨SharedLog.store, retry⟩ command w).2.log

theorem EventLog.Written.alone {log : EventLog} (h : log.Written) (ids : Nat → Uuid) (issued : Nat)
    (journal : List JournalRecord) (retry : RetryPolicy) (command : ProfileCommand) :
    Written (CommandHandler.handle ⟨SharedLog.store, retry⟩ command
      ⟨log, [], ids, issued, journal⟩).2.log := by
  apply Written.handle
  intro turns
  rw [List.take_nil]
  exact h

/-- What an empty log has, and what every batch that carries out a command keeps, holds of
each log that handlers write. -/
theorem EventLog.Written.keeps {P : EventLog → Prop} (hempty : P .empty)
    (hlands : ∀ {log : EventLog} {id : AggregateId} {command : ProfileCommand}
      {committed : List StoredEvent}, log.Lawful → P log → CarriesOut log id command committed →
        P (log.extend id committed))
    {log : EventLog} (h : log.Written) : log.Lawful ∧ P log := by
  induction h with
  | empty => exact ⟨.empty, hempty⟩
  | @handle w _ retry command ih =>
    have hseen (seen rest : List (List AppendRequest)) (hschedule : w.schedule = seen ++ rest) :
        (w.log.appendAll seen.flatten).Lawful ∧ P (w.log.appendAll seen.flatten) := by
      have hturns := ih seen.length
      rw [hschedule, List.take_left] at hturns
      exact hturns
    have hcons := (hseen [] _ rfl).1.consistent
    obtain ⟨id, _, result, after, _, hhandle, hlands⟩ :=
      SharedLog.sharedStore.handle_spec retry command hcons
    rw [hhandle]
    cases result with
    | error error =>
      obtain ⟨seen, hschedule, hlog⟩ := hlands
      rw [hlog]
      exact hseen seen _ hschedule
    | ok committed =>
      obtain ⟨v, ⟨seen, hschedule, hlog⟩, hcarries, hidle⟩ := hlands
      have hafter : after.log = v.log.extend id committed := hidle.1
      have hkept := hseen seen _ hschedule
      rw [← hlog] at hkept
      rw [hafter]
      exact ⟨hkept.1.extend hcarries, hlands hkept.1 hkept.2 hcarries⟩

theorem EventLog.Written.lawful {log : EventLog} (h : log.Written) : log.Lawful :=
  (h.keeps (P := fun _ => True) trivial fun _ _ _ => trivial).1

/-- The log of a profile that is added and then minted. -/
def mintedLog : EventLog :=
  let handler : CommandHandler SharedLog := ⟨SharedLog.store, .immediate 1⟩
  let time : Timestamp := ⟨⟨2021, 3, 4, by decide, by decide⟩, ⟨5, 6, 7, 8, by decide, by decide,
    by decide, by decide⟩, by decide⟩
  let added := (handler.handle (.add (some ⟨⟨1⟩⟩) ⟨⟨2⟩⟩ time) ⟨.empty, [], .timeOrdered, 0, []⟩).2.log
  (handler.handle (.act ⟨⟨1⟩⟩ (.mint .inPerson) time) ⟨added, [], .timeOrdered, 1, []⟩).2.log

theorem mintedLog_written : mintedLog.Written := .alone (.alone .empty _ _ _ _ _) _ _ _ _ _

end IdentityLedger
