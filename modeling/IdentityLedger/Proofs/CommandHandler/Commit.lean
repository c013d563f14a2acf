import IdentityLedger.Proofs.CommandHandler.Uncontended
import IdentityLedger.Proofs.Profile.Session

/-!
# Committing and loading

A profile that was loaded and has then decided something is committed exactly if nothing was
added to its stream in between. What is stored then loads to the profile as it was committed,
but for stray times, which come back as they are read; a commit that loses the race changes
neither the store nor the profile.
-/
namespace IdentityLedger

/-- The profile after commands were handled on it, one after another, whatever became of them. -/
def Profile.handleAll (p : Profile) (commands : List ProfileCommand) : Profile :=
  commands.foldl (fun p command => (p.handle command).2) p

namespace Session
variable {s : Session} {id : AggregateId}

theorem run_handle (s : Session) (commands : List ProfileCommand) :
    (s.run (commands.map .handle)).profile = s.profile.handleAll commands ∧
      (s.run (commands.map .handle)).marked = s.marked ∧
      s.recorded <+: (s.run (commands.map .handle)).recorded := by
  induction commands generalizing s with
  | nil => exact ⟨rfl, rfl, List.prefix_rfl⟩
  | cons command commands ih =>
    obtain ⟨hprofile, hmarked, hrecorded⟩ := ih (s.call (.handle command))
    exact ⟨hprofile, hmarked, (List.prefix_append _ _).trans hrecorded⟩

/-- A loaded profile is in use with its whole history marked. -/
theorem Replays.loaded {history : List ProfileEvent} (hfits : (Profile.blank id).Fits history) :
    (⟨.load id history, history, history.length⟩ : Session).Replays id where
  profile_eq := by
    have hnone : (Profile.load id history).uncommitted = .empty := Profile.uncommitted_replay _ _
    rw [List.drop_length]
    change _ = { Profile.load id history with uncommitted := .empty }
    rw [← hnone]
  own := hfits.profileId_eq
  marked_le := Nat.le_refl _

end Session

/-- What is buffered by commands on a loaded profile is what they add to its history. -/
structure Profile.Continues (q : Profile) (id : AggregateId) (history : List ProfileEvent) : Prop where
  id_eq : q.id = id
  committedVersion_eq : q.committedVersion = history.length
  load_eq : Profile.load id (history ++ q.uncommitted.events) = q.markCommitted

theorem Profile.Continues.asRead_markCommitted {q : Profile} {id : AggregateId}
    {history : List ProfileEvent} (h : q.Continues id history)
    (hsettled : history.map ProfileEvent.asRead = history) :
    q.markCommitted.asRead = .load id (history ++ q.uncommitted.events.map ProfileEvent.asRead) := by
  rw [← h.load_eq, asRead_load, List.map_append, hsettled]

theorem Profile.continues_handleAll {id : AggregateId} {history : List ProfileEvent}
    (hfits : (Profile.blank id).Fits history) (commands : List ProfileCommand) :
    ((Profile.load id history).handleAll commands).Continues id history := by
  let s : Session := ⟨.load id history, history, history.length⟩
  have hreplays := (Session.Replays.loaded hfits).run (commands.map .handle)
  obtain ⟨hprofile, hmarked, events, hrecorded⟩ := s.run_handle commands
  change (s.run (commands.map .handle)).Replays id at hreplays
  change _ = (Profile.load id history).handleAll commands at hprofile
  change history ++ events = _ at hrecorded
  have hbuffer : (s.run (commands.map .handle)).profile.uncommitted.events = events := by
    rw [hreplays.profile_eq, hmarked, ← hrecorded]
    exact List.drop_left
  rw [← hprofile]
  exact ⟨hreplays.id_eq, hreplays.committedVersion_eq.trans hmarked,
    by rw [hbuffer, hrecorded, hreplays.load_eq]⟩

theorem EventLog.store_append {ω : Type} (cell : Cell ω EventLog) (id : AggregateId)
    (expected : ExpectedVersion) (events : List NewEvent) (w : ω) :
    (EventLog.store cell).append id expected events w =
      (((cell.get w).append id expected events).1,
        cell.set ((cell.get w).append id expected events).2 w) := rfl

namespace Memory

/-- What becomes of a commit by what has become of the stream since `before`, when the profile
was loaded. -/
inductive Commits (before after : Memory) (id : AggregateId) (q : Profile) :
    (Except DispatchError (List StoredEvent) × Profile) × Memory → Prop
  | stored (batch : List NewEvent) {m : Memory}
      (unchanged : after.events.stream id = before.events.stream id)
      (wraps : List.Forall₂ (Repository.Wraps id) q.uncommitted.events batch)
      (quiet : Quiet { after with
        events := after.events.extend id (EventLog.number (q.committedVersion + 1) batch) } m)
      (reloads : Repository.load (EventLog.store eventCell) id m = (.ok q.markCommitted.asRead, m))
      (settled : (∀ e ∈ q.uncommitted.events, ∀ t ∈ e.times, ¬ t.IsStray) →
        q.markCommitted.asRead = q.markCommitted) :
      Commits before after id q
        ((.ok (EventLog.number (q.committedVersion + 1) batch), q.markCommitted), m)
  | lost (reason : String) {m : Memory}
      (changed : after.events.stream id ≠ before.events.stream id) (quiet : Quiet after m) :
      Commits before after id q ((.error (.concurrency reason), q), m)

theorem loadOrBlank_eq {m : Memory} (hlog : m.events.Lawful) (id : AggregateId) :
    Repository.loadOrBlank (EventLog.store eventCell) id m =
      (.ok (.load id (m.events.history id)), m) := by
  have hload : Repository.load (EventLog.store eventCell) id m =
    (Repository.replayStream id (m.events.stream id), m) := rfl
  rw [Repository.loadOrBlank, bind_apply, hload]
  by_cases hstream : m.events.stream id = []
  · rw [EventLog.history, hstream]
    rfl
  · rw [hlog.replayStream_eq hstream]
    rfl

/-- A stream that ends with what a profile has decided loads to the committed profile, as it
is read. -/
theorem load_stored {m : Memory} (hcons : m.events.Consistent) {id : AggregateId} {q : Profile}
    {history : List ProfileEvent} (hq : q.Continues id history)
    (hsettled : history.map ProfileEvent.asRead = history) (hbuffer : q.uncommitted.events ≠ [])
    (hholds : List.Forall₂ (StoredEvent.Holds id)
      (history ++ q.uncommitted.events.map ProfileEvent.asRead) (m.events.stream id)) :
    Repository.load (EventLog.store eventCell) id m = (.ok q.markCommitted.asRead, m) := by
  have hevents : history ++ q.uncommitted.events.map ProfileEvent.asRead ≠ [] :=
    fun hnil => hbuffer (List.map_eq_nil_iff.mp (List.append_eq_nil_iff.mp hnil).2)
  rw [hq.asRead_markCommitted hsettled, ← Repository.replayStream_of_holds hcons hholds hevents]
  rfl

theorem commits_of_continues {before after : Memory} (hlog : before.events.Lawful)
    (hcons : after.events.Consistent) {id : AggregateId}
    (hstart : before.events.stream id <+: after.events.stream id) {q : Profile}
    (hq : q.Continues id (before.events.history id)) (hbuffer : q.uncommitted.events ≠ []) :
    Commits before after id q (Repository.commit (EventLog.store eventCell) q after) := by
  obtain ⟨batch, w, hwraps, hquiet, hcommit⟩ := sharedStore.commit_buffered hbuffer after
  have hw : eventCell.get w = after.events := hquiet.events
  rw [hq.id_eq] at hwraps hcommit
  have hversion : q.committedVersion = (before.events.stream id).length :=
    hq.committedVersion_eq.trans (hlog.length_history id)
  have hsame : q.committedVersion = (after.events.stream id).length →
      before.events.stream id = after.events.stream id :=
    fun heq => hstart.eq_of_length (hversion.symm.trans heq)
  rcases hcons.append_exact hwraps hbuffer q.committedVersion
    (fun heq => hsame heq ▸ hlog.aggregateType_eq id) with ⟨heq, happend⟩ | ⟨hne, reason, happend⟩
  · rw [EventLog.store_append, hw, happend] at hcommit
    obtain ⟨m, hcommit, hidle⟩ := hcommit
    have hquiet' : Quiet { after with
        events := after.events.extend id (EventLog.number (q.committedVersion + 1) batch) } m :=
      ⟨hidle.events, hidle.rows.trans hquiet.rows, hidle.cursors.trans hquiet.cursors⟩
    rw [hcommit]
    have hsettled := Repository.map_asRead_of_holds (hlog.holds id)
    refine .stored batch (hsame heq).symm hwraps hquiet' (load_stored ?_ hq hsettled hbuffer ?_) ?_
    · rw [hquiet'.events, heq]
      exact hcons.extend fun event hmem => (Repository.uniform_of_wraps hwraps event hmem).1
    · rw [hquiet'.events, EventLog.stream_extend, if_pos rfl, ← hsame heq]
      exact List.rel_append (hlog.holds id) (Repository.holds_number hwraps _)
    · intro hbuffered
      rw [hq.asRead_markCommitted hsettled, ProfileEvent.map_asRead_eq_self hbuffered, hq.load_eq]
  · rw [EventLog.store_append, hw, happend] at hcommit
    rw [hcommit]
    have hchanged : after.events.stream id ≠ before.events.stream id :=
      fun hstream => hne (hversion.trans (congrArg List.length hstream.symm))
    exact .lost reason hchanged ⟨rfl, hquiet.rows, hquiet.cursors⟩

/-- A profile is loaded from a log that handlers have written, or blank if it has no stream,
and commands are handled on it, while others request what they will of the store. What is
buffered then is stored, and loads to the profile as it is once it is committed, apart from stray
times, if the profile's stream has stayed as it was; if not, the race is lost and nothing has
happened. -/
theorem commit_then_load {before after : Memory} (hwritten : before.events.Written)
    (requests : List AppendRequest) (hafter : after.events = before.events.appendAll requests)
    (id : AggregateId) (commands : List ProfileCommand) :
    ∃ p, Repository.loadOrBlank (EventLog.store eventCell) id before = (.ok p, before) ∧
      let q := p.handleAll commands
      q.uncommitted.events ≠ [] →
        Commits before after id q (Repository.commit (EventLog.store eventCell) q after) := by
  have hlog := hwritten.lawful
  refine ⟨_, loadOrBlank_eq hlog id, ?_⟩
  intro q hbuffer
  have hcons : after.events.Consistent := by
    rw [hafter]
    exact hlog.consistent.appendAll requests
  have hstart : before.events.stream id <+: after.events.stream id := by
    rw [hafter]
    exact EventLog.stream_prefix_appendAll _ _ _
  exact commits_of_continues hlog hcons hstart
    (Profile.continues_handleAll (hlog.fits id) commands) hbuffer

/-- An activation of the minted profile: alone it is stored, against a rival it is lost. -/
theorem commit_then_load_mintedLog :
    let before : Memory := { Memory.empty with events := mintedLog }
    let time : Timestamp := ⟨⟨2021, 3, 5, by decide, by decide⟩, ⟨5, 6, 7, 8, by decide, by decide,
      by decide, by decide⟩, by decide⟩
    let rival : AppendRequest := ⟨⟨⟨1⟩⟩, .any,
      [.ofProfileEvent ⟨⟨1⟩⟩ Profile.aggregateType ⟨9⟩ ⟨⟨⟨1⟩⟩, time, .gpoVerificationPending⟩]⟩
    let after : Memory := { before with events := mintedLog.appendAll [rival] }
    mintedLog.Written ∧ ∃ p, Repository.loadOrBlank (EventLog.store eventCell) ⟨⟨1⟩⟩ before = (.ok p, before) ∧
      let q := p.handleAll [.act ⟨⟨1⟩⟩ .activate time]
      q.uncommitted.size = 1 ∧
        Commits before before ⟨⟨1⟩⟩ q (Repository.commit (EventLog.store eventCell) q before) ∧
        Commits before after ⟨⟨1⟩⟩ q (Repository.commit (EventLog.store eventCell) q after) := by
  intro before time rival after
  have hlog := mintedLog_written
  have hwritten : before.events.Written := hlog
  have hrivals : after.events = before.events.appendAll [rival] := rfl
  obtain ⟨p, hload, halone⟩ := commit_then_load hwritten [] rfl ⟨⟨1⟩⟩ [.act ⟨⟨1⟩⟩ .activate time]
  obtain ⟨p', hload', hrace⟩ :=
    commit_then_load hwritten [rival] hrivals ⟨⟨1⟩⟩ [.act ⟨⟨1⟩⟩ .activate time]
  obtain rfl : p = .load ⟨⟨1⟩⟩ (mintedLog.history ⟨⟨1⟩⟩) := by
    have hblank := hload.symm.trans (loadOrBlank_eq (m := before) hlog.lawful ⟨⟨1⟩⟩)
    cases hblank
    rfl
  cases hload.symm.trans hload'
  have hsize : ((Profile.load ⟨⟨1⟩⟩ (mintedLog.history ⟨⟨1⟩⟩)).handleAll
      [.act ⟨⟨1⟩⟩ .activate time]).uncommitted.size = 1 := by decide +kernel
  have hbuffer := List.ne_nil_of_length_pos (Nat.lt_of_lt_of_eq Nat.one_pos hsize.symm)
  exact ⟨hlog, _, hload, hsize, halone hbuffer, hrace hbuffer⟩

/-- A profile that is created at a stray time is stored, but loads to another one. -/
theorem commit_then_load_stray :
    let q := (Profile.blank ⟨⟨1⟩⟩).handleAll [.add (some ⟨⟨1⟩⟩) ⟨⟨2⟩⟩ .stray]
    let committed := Repository.commit (EventLog.store eventCell) q .empty
    (Repository.loadOrBlank (EventLog.store eventCell) ⟨⟨1⟩⟩ .empty).1 = .ok (.blank ⟨⟨1⟩⟩) ∧
      q.uncommitted.size = 1 ∧ committed.1.1.isOk = true ∧ committed.1.2 = q.markCommitted ∧
      (Repository.load (EventLog.store eventCell) ⟨⟨1⟩⟩ committed.2).1 ≠ .ok q.markCommitted := by
  decide +kernel

end Memory

end IdentityLedger
