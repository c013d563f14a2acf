import IdentityLedger.Proofs.Projection.Rebuild
import Mathlib.Data.Set.Card

/-!
# Gaps in a history

A rebuild reads its verdict off what is still parked when everything has been replayed. By
then each envelope that it was given is behind the cursor of its stream or parked, whatever
the order, and nothing is behind a cursor that it was not given. So an envelope is left
parked exactly if a number below its own is missing, and the cursor of its stream is the
last number before the first that is.
-/
namespace IdentityLedger

/-- An envelope of a stream with a number is among the given ones. -/
def Present (es : List (Envelope Json)) (id : AggregateId) (number : Nat) : Prop :=
  ∃ e ∈ es, e.aggregateId = id ∧ e.sequenceNumber = number

/-- Of each stream, the numbers that are present are those from 1 up to some last one. -/
def Unbroken (es : List (Envelope Json)) : Prop :=
  ∀ id, ∃ last, ∀ number, Present es id number ↔ 1 ≤ number ∧ number ≤ last

/-- Of a stream, every number up to `last` is present; the one after it is missing, though a
later one is not. -/
structure BreaksAfter (es : List (Envelope Json)) (id : AggregateId) (last : Nat) : Prop where
  first : ∀ number, 1 ≤ number → number ≤ last → Present es id number
  missing : ¬Present es id (last + 1)
  further : ∃ number, last + 1 < number ∧ Present es id number

theorem BreaksAfter.not_unbroken {es : List (Envelope Json)} {id : AggregateId} {last : Nat}
    (h : BreaksAfter es id last) : ¬Unbroken es := by
  intro hunbroken
  obtain ⟨bound, hbound⟩ := hunbroken id
  obtain ⟨number, hlt, hpresent⟩ := h.further
  have hle : number ≤ bound := ((hbound number).mp hpresent).2
  exact h.missing ((hbound (last + 1)).mpr ⟨by omega, by omega⟩)

/-- What a replay of envelopes from an empty start can answer: their number, each counted
once, or the place of a gap. -/
inductive RebuildVerdict (es : List (Envelope Json)) : Except ProjectionError Nat → Prop
  | whole (unbroken : Unbroken es) : RebuildVerdict es (.ok {e | e ∈ es}.ncard)
  | gap {id : AggregateId} {last : Nat} (breaks : BreaksAfter es id last) :
      RebuildVerdict es (.error (.incompleteHistory id last))

theorem nodup_of_streams {es : List (Envelope Json)}
    (h : ∀ id, ((streamOf es id).map Envelope.sequenceNumber).Nodup) : es.Nodup := by
  rw [List.nodup_iff_sublist]
  intro e htwice
  have hstream := (htwice.filter fun e' => e'.aggregateId = e.aggregateId).map Envelope.sequenceNumber
  exact List.nodup_iff_sublist.mp (h e.aggregateId) e.sequenceNumber (by simpa [streamOf] using hstream)

namespace RowModel
variable {ω : Type} [Journal ω] {m : RowModel ω} {log : EventLog} {r : Runner ω} {w : ω}
variable {given : List (Envelope Json)} {count : Nat}

/-- Given envelopes have been replayed from an empty start. As many as were counted have been
taken, of each stream those up to the cursor; the others are behind a cursor, too, or wait. -/
structure Replayed (m : RowModel ω) (log : EventLog) (given : List (Envelope Json)) (count : Nat)
    (r : Runner ω) (w : ω) : Prop where
  follows : m.Follows log r w
  steady : m.steady w
  known : ∀ e ∈ given, e ∈ log.envelopes
  accounts : ∀ e ∈ given, m.Accounts r w e
  parked : ∀ e ∈ r.backlog.envelopes, e ∈ given
  taken : ∃ taken : List (Envelope Json), taken.length = count ∧ (∀ e ∈ taken, e ∈ given) ∧
    ∀ id, (streamOf taken id).map Envelope.sequenceNumber = List.range' 1 (m.cursor w id)

namespace Replayed

theorem start (hcursor : m.cursor w = fun _ => 0) (htable : m.table w = .empty)
    (hsteady : m.steady w) : m.Replayed log [] 0 m.runner w where
  follows := .start hcursor htable
  steady := hsteady
  known _ hmem := absurd hmem List.not_mem_nil
  accounts _ hmem := absurd hmem List.not_mem_nil
  parked _ hmem := absurd hmem List.not_mem_nil
  taken := by
    refine ⟨[], rfl, fun _ hmem => absurd hmem List.not_mem_nil, fun id => ?_⟩
    rw [hcursor]
    rfl

theorem apply (hlog : log.Lawful) (h : m.Replayed log given count r w) {e : Envelope Json}
    (hmem : e ∈ log.envelopes) :
    ∃ answer r' w', r.apply e w = ((.ok answer, r'), w') ∧ answer.stalled = [] ∧
      m.Replayed log (given ++ [e]) (count + answer.events.length) r' w' := by
  obtain ⟨answer, r', w', happly, haccepted⟩ := h.follows.accepts hlog h.steady hmem
  have hcases := Runner.apply_cases h.follows.lawful e w
  obtain ⟨taken, hcount, hgiven, hnumbers⟩ := h.taken
  have hold : ∀ e' ∈ given, e' ∈ given ++ [e] := fun _ => List.mem_append_left _
  rw [happly] at hcases
  refine ⟨answer, r', w', happly, haccepted.stalled, haccepted.follows, haccepted.steady, ?_, ?_,
    ?_, ?_⟩
  · intro e' hmem'
    rcases List.mem_append.mp hmem' with hold | hnew
    · exact h.known e' hold
    · rw [List.mem_singleton.mp hnew]
      exact hmem
  · intro e' hmem'
    refine haccepted.accounts e' ?_
    exact (List.mem_append.mp hmem').symm.imp List.mem_singleton.mp (h.accounts e')
  · cases hcases with
    | duplicate => exact fun e' hmem' => hold e' (h.parked e' hmem')
    | parked =>
      intro e' hmem'
      rcases Backlog.mem_park.mp hmem' with rfl | ⟨hmem', _⟩
      · exact List.mem_append_right _ List.mem_cons_self
      · exact hold e' (h.parked e' hmem')
    | applied => exact fun e' hmem' => hold e' (h.parked e' (Backlog.mem_prune.mp hmem').1)
  · cases hcases with
    | duplicate _ still | parked _ still =>
      have hcursor : m.cursor w' = m.cursor w := still.cursor
      refine ⟨taken, hcount, fun e' hmem' => hold e' (hgiven e' hmem'), fun id => ?_⟩
      rw [hcursor]
      exact hnumbers id
    | applied es stalled consumes hparked =>
      refine ⟨taken ++ (e :: es), ?_, ?_, fun id => ?_⟩
      · rw [List.length_append, hcount, ApplyOutcome.events, List.length_map]
      · intro e' hmem'
        rcases List.mem_append.mp hmem' with hmem' | hmem'
        · exact hold e' (hgiven e' hmem')
        rcases List.mem_cons.mp hmem' with rfl | hmem'
        · exact List.mem_append_right _ List.mem_cons_self
        · exact hold e' (h.parked e' (hparked e' hmem').2)
      · rw [streamOf, List.filter_append, ← streamOf, List.map_append, hnumbers]
        exact consumes.numbered id

theorem replay (hlog : log.Lawful) (h : m.Replayed log given count r w) {es : List (Envelope Json)}
    (hes : ∀ e ∈ es, e ∈ log.envelopes) :
    ∃ total r' w', r.replay count es w = ((.ok total, r'), w') ∧
      m.Replayed log (given ++ es) total r' w' := by
  induction es generalizing given count r w with
  | nil => exact ⟨count, r, w, rfl, (List.append_nil given).symm ▸ h⟩
  | cons e es ih =>
    rw [List.forall_mem_cons] at hes
    obtain ⟨answer, r', w', happly, hstalled, hfirst⟩ := h.apply hlog hes.1
    obtain ⟨total, r'', w'', hreplay, hrest⟩ := ih hfirst hes.2
    rw [List.append_assoc] at hrest
    refine ⟨total, r'', w'', ?_, hrest⟩
    rw [Runner.replay, bind_apply, happly]
    cases answer with
    | applied progress =>
      obtain ⟨applied, stalled⟩ := progress
      obtain rfl : stalled = [] := hstalled
      exact hreplay
    | duplicate | parked => exact hreplay

/-- Behind a cursor there is nothing that was not given. -/
theorem present (h : m.Replayed log given count r w) {id : AggregateId} {number : Nat}
    (hpos : 1 ≤ number) (hbehind : number ≤ m.cursor w id) : Present given id number := by
  obtain ⟨taken, _, hgiven, hnumbers⟩ := h.taken
  have hmem : number ∈ (streamOf taken id).map Envelope.sequenceNumber := by
    rw [hnumbers, List.mem_range'_1]
    omega
  obtain ⟨e, he, hnumber⟩ := List.mem_map.mp hmem
  obtain ⟨htaken, hid⟩ := List.mem_filter.mp he
  exact ⟨e, hgiven e htaken, of_decide_eq_true hid, hnumber⟩

theorem unbroken (hlog : log.Lawful) (h : m.Replayed log given count r w)
    (hnone : r.backlog.envelopes = []) : Unbroken given := by
  intro id
  refine ⟨m.cursor w id, fun number => ⟨?_, fun hnumber => h.present hnumber.1 hnumber.2⟩⟩
  rintro ⟨e, hmem, rfl, rfl⟩
  refine ⟨(hlog.consistent.gapless.getElem?_streamOf (h.known e hmem)).1, ?_⟩
  refine (h.accounts e hmem).resolve_right fun hparked => ?_
  rw [hnone] at hparked
  exact List.not_mem_nil hparked

/-- If nothing is left parked, what was taken is what was given, each envelope once. -/
theorem count_eq (hlog : log.Lawful) (h : m.Replayed log given count r w)
    (hnone : r.backlog.envelopes = []) : count = {e | e ∈ given}.ncard := by
  classical
  obtain ⟨taken, rfl, hgiven, hnumbers⟩ := h.taken
  have hnodup : taken.Nodup := nodup_of_streams fun id => hnumbers id ▸ List.nodup_range'
  have hall : ∀ e ∈ given, e ∈ taken := by
    intro e hmem
    have hbehind : e.sequenceNumber ≤ m.cursor w e.aggregateId :=
      (h.accounts e hmem).resolve_right fun hparked => List.not_mem_nil (hnone ▸ hparked)
    have hpos := (hlog.consistent.gapless.getElem?_streamOf (h.known e hmem)).1
    have hnumber : e.sequenceNumber ∈ (streamOf taken e.aggregateId).map Envelope.sequenceNumber := by
      rw [hnumbers, List.mem_range'_1]
      omega
    obtain ⟨e', he', hsame⟩ := List.mem_map.mp hnumber
    obtain ⟨htaken, hid⟩ := List.mem_filter.mp he'
    have heq := hlog.consistent.gapless.eq_of_place (h.known e hmem)
      (h.known e' (hgiven e' htaken)) (of_decide_eq_true hid) hsame
    exact heq ▸ htaken
  have hset : {e | e ∈ given} = (taken.toFinset : Set (Envelope Json)) := by
    ext e
    exact ⟨fun hmem => List.mem_toFinset.mpr (hall e hmem),
      fun hmem => hgiven e (List.mem_toFinset.mp hmem)⟩
  rw [hset, Set.ncard_coe_finset, List.toFinset_card_of_nodup hnodup]

/-- An envelope that is left parked shows a gap in its stream, right after the cursor. -/
theorem breaksAfter (h : m.Replayed log given count r w) {e : Envelope Json}
    (hparked : e ∈ r.backlog.envelopes) : BreaksAfter given e.aggregateId (m.cursor w e.aggregateId) where
  first _ := h.present
  missing := by
    rintro ⟨e', hmem, hid, hnumber⟩
    rcases h.accounts e' hmem with hbehind | hwaiting
    · rw [hid] at hbehind
      omega
    · have hwaits : m.cursor w e'.aggregateId + 1 < e'.sequenceNumber := h.follows.waits e' hwaiting
      rw [hid] at hwaits
      omega
  further := ⟨e.sequenceNumber, h.follows.waits e hparked, e, h.parked e hparked, rfl, rfl⟩

end Replayed

theorem rebuild_verdict (hlog : log.Lawful) (hsteady : m.steady w)
    (hclear : ∀ error, (m.rows.clear w).1 ≠ .error error) (backlog : Backlog)
    {es : List (Envelope Json)} (hes : ∀ e ∈ es, e ∈ log.envelopes) :
    RebuildVerdict es ((m.runner.withBacklog backlog).rebuild es w).1.1 := by
  obtain ⟨w₁, hreset, hcursor, htable, hlater⟩ := reset_forgets backlog hclear
  have hstart : m.Replayed log [] 0 m.runner w₁ :=
    .start hcursor htable (m.reliable.later hsteady hlater)
  obtain ⟨total, r, w₂, hreplay, hreplayed⟩ := hstart.replay hlog hes
  rw [Runner.rebuild, bind_apply, hreset]
  dsimp only
  rw [bind_apply, hreplay]
  cases haggregates : r.backlog.aggregates with
  | nil =>
    have hnone := Backlog.eq_nil_of_aggregates haggregates
    simp only [haggregates, pure_apply]
    rw [hreplayed.count_eq hlog hnone]
    exact .whole (hreplayed.unbroken hlog hnone)
  | cons id ids =>
    obtain ⟨e, hparked, rfl⟩ := Backlog.mem_aggregates.mp (haggregates ▸ List.mem_cons_self)
    simp only [haggregates, bind_apply, pure_apply, Runner.cursor_apply hreplayed.follows.lawful]
    exact .gap (hreplayed.breaksAfter hparked)

end RowModel

/-- A rebuild over rows that do not fail detects gaps exactly. From whatever state it starts and
whatever envelopes of a log it is given, in any order and any number of times, it succeeds
if and only if they are numbered from 1 without gaps in every stream, and counts each of them
once. Otherwise it names a stream with a gap and the last number before it. -/
theorem rebuild_detects_gaps {ω : Type} [Journal ω] (m : RowModel ω) {log : EventLog}
    (hlog : log.Written) (es : List (Envelope Json)) (hes : ∀ e ∈ es, e ∈ log.envelopes)
    (backlog : Backlog) (w : ω) (hsteady : m.steady w)
    (hclear : ∀ error, (m.rows.clear w).1 ≠ .error error) :
    let answer := ((m.runner.withBacklog backlog).rebuild es w).1.1
    (∀ count, answer = .ok count ↔ Unbroken es ∧ count = {e | e ∈ es}.ncard) ∧
      (¬Unbroken es → ∃ id last, answer = .error (.incompleteHistory id last) ∧
        BreaksAfter es id last) := by
  intro answer
  have hverdict : RebuildVerdict es answer := RowModel.rebuild_verdict hlog.lawful hsteady hclear backlog hes
  generalize answer = verdict at hverdict
  cases hverdict with
  | whole hunbroken =>
    refine ⟨fun count => ?_, fun hbroken => absurd hunbroken hbroken⟩
    rw [Except.ok.injEq, eq_comm]
    exact (and_iff_right hunbroken).symm
  | gap hbreaks =>
    refine ⟨fun count => ?_, fun _ => ⟨_, _, rfl, hbreaks⟩⟩
    exact ⟨nofun, fun hwhole => absurd hwhole.1 hbreaks.not_unbroken⟩

/-- The second event of a profile twice and the first one not at all, where a cursor is too far
and everything is parked. -/
theorem rebuild_detects_gaps_mintedLog :
    let es := mintedLog.envelopes.drop 1 ++ mintedLog.envelopes.drop 1
    let w : Memory := { Memory.empty with
      cursors := CursorTable.empty.update profileProjectionName ⟨⟨1⟩⟩ 7 }
    mintedLog.Written ∧ (∀ e ∈ es, e ∈ mintedLog.envelopes) ∧ Memory.rowModel.steady w ∧
      (∀ error, (Memory.rowModel.rows.clear w).1 ≠ .error error) ∧
      let answer := ((Memory.rowModel.runner.withBacklog ⟨mintedLog.envelopes⟩).rebuild es w).1.1
      (∀ count, answer = .ok count ↔ Unbroken es ∧ count = {e | e ∈ es}.ncard) ∧
        (¬Unbroken es → ∃ id last, answer = .error (.incompleteHistory id last) ∧
          BreaksAfter es id last) := by
  intro es w
  have hlog := mintedLog_written
  have hes : ∀ e ∈ es, e ∈ mintedLog.envelopes := by
    intro e hmem
    exact List.mem_of_mem_drop ((List.mem_append.mp hmem).elim id id)
  have hclear : ∀ error, (Memory.rowModel.rows.clear w).1 ≠ .error error := fun _ herror => nomatch herror
  exact ⟨hlog, hes, trivial, hclear,
    rebuild_detects_gaps Memory.rowModel hlog es hes _ w trivial hclear⟩

end IdentityLedger
