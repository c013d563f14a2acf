import IdentityLedger.Projection.Runner
import IdentityLedger.Proofs.Projection.Backlog
import IdentityLedger.Proofs.Steps
import Mathlib.Logic.Function.Basic

/-!
# How a runner moves

A state is observed through its cursors and its model. Everything a runner does to them
is a run of single steps, each of which takes the envelope that is next in its stream;
what it leaves alone, and what it reports, is said beside. The projection may fail at
any time, as long as a failure leaves the model as it was.
-/
namespace IdentityLedger

theorem CursorTable.getD_update (t : CursorTable) (projection : String) (id : AggregateId)
    (number : Nat) : (fun other => ((t.update projection id number).get? projection other).getD 0) =
      Function.update (fun other => (t.get? projection other).getD 0) id number := by
  funext other
  rw [get?_update]
  by_cases hother : other = id
  · rw [if_pos ⟨rfl, hother⟩, hother, Function.update_self]
    rfl
  · rw [if_neg (fun h => hother h.2), Function.update_of_ne hother]

/-- How a state is observed: cursors, model, and what always holds of a later state. -/
structure Observation (ω σ : Type) where
  cursor : ω → AggregateId → Nat
  model : ω → σ
  later : ω → ω → Prop
  /-- What taking an envelope of a handled type does to the model. -/
  effect : Envelope Json → σ → σ → Prop
  vacant : σ → Prop

namespace Observation
variable {ω σ : Type} (o : Observation ω σ)

/-- Nothing has moved. -/
structure Still (a b : ω) : Prop where
  cursor : o.cursor b = o.cursor a
  model : o.model b = o.model a
  later : o.later a b

/-- The envelope that is next in its stream has been taken. -/
structure Takes (p : Projection ω) (a : ω) (e : Envelope Json) (b : ω) : Prop where
  next : e.sequenceNumber = o.cursor a e.aggregateId + 1
  cursor : o.cursor b = Function.update (o.cursor a) e.aggregateId e.sequenceNumber
  model : if p.handles e.eventType then o.effect e (o.model a) (o.model b)
    else o.model b = o.model a
  later : o.later a b

inductive Consumes (p : Projection ω) : ω → List (Envelope Json) → ω → Prop
  | nil {a b : ω} (still : o.Still a b) : Consumes p a [] b
  | cons {a b c : ω} {e : Envelope Json} {es : List (Envelope Json)} (takes : o.Takes p a e b)
      (consumes : Consumes p b es c) : Consumes p a (e :: es) c

/-- The projection has refused an envelope, and nothing has moved since. -/
def Refuses (p : Projection ω) (a : ω) (e : Envelope Json) (b : ω) : Prop :=
  ∃ v error, o.later a v ∧ p.handles e.eventType = true ∧ (p.receive e v).1 = .error error ∧
    o.Still v b

/-- What a cursor store does to a state on behalf of a projection. -/
structure Tracks [Journal ω] (name : String) (cursors : CursorStore ω) : Prop where
  frame : Frame o.later
  cursor_note : ∀ record w, o.cursor (Journal.note record w) = o.cursor w
  model_note : ∀ record w, o.model (Journal.note record w) = o.model w
  get : ∀ id w, ((cursors.get name id w).1.getD 0, (cursors.get name id w).2) = (o.cursor w id, w)
  cursor_update : ∀ id number w,
    o.cursor (cursors.update name id number w).2 = Function.update (o.cursor w) id number
  model_update : ∀ id number w, o.model (cursors.update name id number w).2 = o.model w
  later_update : ∀ id number w, o.later w (cursors.update name id number w).2
  cursor_clear : ∀ w, o.cursor (cursors.clear name w).2 = fun _ => 0
  model_clear : ∀ w, o.model (cursors.clear name w).2 = o.model w
  later_clear : ∀ w, o.later w (cursors.clear name w).2

/-- What a projection and its cursor store do to a state. -/
structure Lawful [Journal ω] (p : Projection ω) (cursors : CursorStore ω) : Prop
    extends o.Tracks p.name cursors where
  receive : ∀ e w, match p.receive e w with
    | (.error _, w') => o.Still w w'
    | (.ok (), w') => o.cursor w' = o.cursor w ∧ o.effect e (o.model w) (o.model w') ∧ o.later w w'
  reset : ∀ w, match p.reset w with
    | (.error _, w') => o.Still w w'
    | (.ok (), w') => o.vacant (o.model w') ∧ o.later w w'

theorem tracks_of_cell [Journal ω] {name : String} (cell : Cell ω CursorTable)
    (hcursor : ∀ w id, o.cursor w id = ((cell.get w).get? name id).getD 0) (hframe : Frame o.later)
    (hget : ∀ t w, cell.get (cell.set t w) = t)
    (hnote : ∀ record w, cell.get (Journal.note record w) = cell.get w)
    (hmodel : ∀ record w, o.model (Journal.note record w) = o.model w)
    (hset : ∀ t w, o.model (cell.set t w) = o.model w)
    (hupdate : ∀ id number w, o.later w (cell.set ((cell.get w).update name id number) w))
    (hclear : ∀ w, o.later w (cell.set ((cell.get w).clear name) w)) :
    o.Tracks name (CursorTable.store cell) where
  frame := hframe
  cursor_note record w := by
    funext id
    rw [hcursor, hcursor, hnote]
  model_note := hmodel
  get id w := by
    rw [hcursor]
    rfl
  cursor_update id number w := by
    have hall (w : ω) : o.cursor w = fun id => ((cell.get w).get? name id).getD 0 :=
      funext (hcursor w)
    change o.cursor (cell.set ((cell.get w).update name id number) w) = _
    rw [hall w, ← CursorTable.getD_update, hall, hget]
  model_update _ _ _ := hset _ _
  later_update := hupdate
  cursor_clear w := by
    funext other
    change o.cursor (cell.set ((cell.get w).clear name) w) other = _
    rw [hcursor, hget, CursorTable.get?_clear, if_pos rfl]
    rfl
  model_clear _ := hset _ _
  later_clear := hclear

/-- What a pass over the parked envelopes of a stream can hand back: nothing if none is
next, or the next one, which the projection has refused. -/
inductive Stalls (p : Projection ω) (backlog : Backlog) (id : AggregateId) (a b : ω) :
    List StalledEnvelope → Prop
  | none (absent : backlog.find? id (o.cursor b id + 1) = .none) : Stalls p backlog id a b []
  | one {e : Envelope Json} (error : ProjectionError)
      (found : backlog.find? id (o.cursor b id + 1) = some e) (refuses : o.Refuses p a e b) :
      Stalls p backlog id a b [⟨e, error⟩]

/-- A pass over the parked envelopes of a stream. -/
structure Drains (p : Projection ω) (backlog : Backlog) (id : AggregateId) (a : ω)
    (es : List (Envelope Json)) (stalled : List StalledEnvelope) (b : ω) : Prop where
  consumes : o.Consumes p a es b
  parked : ∀ e ∈ es, e.aggregateId = id ∧ e ∈ backlog.envelopes
  stalls : o.Stalls p backlog id a b stalled

variable {o} {p : Projection ω}

theorem Takes.cursor_le {a b : ω} {e : Envelope Json} (h : o.Takes p a e b) (id : AggregateId) :
    o.cursor a id ≤ o.cursor b id := by
  rw [h.cursor]
  by_cases hid : id = e.aggregateId
  · subst hid
    rw [Function.update_self, h.next]
    exact Nat.le_succ _
  · exact Nat.le_of_eq (Function.update_of_ne hid _ _).symm

theorem Consumes.cursor_le {a b : ω} {es : List (Envelope Json)} (h : o.Consumes p a es b)
    (id : AggregateId) : o.cursor a id ≤ o.cursor b id := by
  induction h with
  | nil still => exact Nat.le_of_eq (congrFun still.cursor id).symm
  | cons takes _ ih => exact Nat.le_trans (takes.cursor_le id) ih

/-- The first envelope is the next one of its stream, and the cursor passes it. -/
theorem Consumes.head {a b : ω} {e : Envelope Json} {es : List (Envelope Json)}
    (h : o.Consumes p a (e :: es) b) : e.sequenceNumber = o.cursor a e.aggregateId + 1 ∧
      e.sequenceNumber ≤ o.cursor b e.aggregateId := by
  cases h with
  | cons takes rest =>
    refine ⟨takes.next, Nat.le_trans (Nat.le_of_eq ?_) (rest.cursor_le e.aggregateId)⟩
    rw [takes.cursor, Function.update_self]

theorem Consumes.numbered {a b : ω} {es : List (Envelope Json)} (h : o.Consumes p a es b)
    (id : AggregateId) : List.range' 1 (o.cursor a id) ++
      (es.filter fun e => e.aggregateId = id).map Envelope.sequenceNumber =
        List.range' 1 (o.cursor b id) := by
  induction h with
  | nil still => rw [still.cursor, List.filter_nil, List.map_nil, List.append_nil]
  | @cons _ _ _ e _ takes _ ih =>
    rw [← ih, takes.cursor]
    by_cases hid : id = e.aggregateId
    · subst hid
      rw [Function.update_self, List.filter_cons_of_pos (by simp), List.map_cons, takes.next,
        List.range'_1_concat, List.append_assoc, Nat.add_comm 1]
      rfl
    · rw [Function.update_of_ne hid, List.filter_cons_of_neg (by simpa using Ne.symm hid)]

theorem Consumes.cursor_eq {a b : ω} {es : List (Envelope Json)} (h : o.Consumes p a es b)
    {id other : AggregateId} (hes : ∀ e ∈ es, e.aggregateId = id) (hne : other ≠ id) :
    o.cursor b other = o.cursor a other := by
  induction h with
  | nil still => rw [still.cursor]
  | cons takes _ ih =>
    rw [List.forall_mem_cons] at hes
    rw [ih hes.2, takes.cursor, hes.1, Function.update_of_ne hne]

theorem Consumes.preserves {P : ω → Prop} {a b : ω} {es : List (Envelope Json)}
    (hes : o.Consumes p a es b) (hstill : ∀ a b, o.Still a b → P a → P b)
    (htakes : ∀ a e b, e ∈ es → o.Takes p a e b → P a → P b) (ha : P a) : P b := by
  induction hes with
  | nil still => exact hstill _ _ still ha
  | cons takes _ ih =>
    exact ih (fun a e b hmem => htakes a e b (List.mem_cons_of_mem _ hmem))
      (htakes _ _ _ List.mem_cons_self takes ha)

theorem Stalls.place {backlog : Backlog} {id : AggregateId} {a b : ω}
    {stalled : List StalledEnvelope} (h : o.Stalls p backlog id a b stalled) {e : Envelope Json}
    (hmem : e ∈ stalled.map StalledEnvelope.envelope) :
    e ∈ backlog.envelopes ∧ e.aggregateId = id ∧ e.sequenceNumber = o.cursor b id + 1 := by
  cases h with
  | none => exact absurd hmem List.not_mem_nil
  | one error found =>
    rw [List.mem_singleton.mp hmem]
    exact Backlog.mem_of_find? found

/-- An envelope at another place does not matter to what a pass hands back. -/
theorem Stalls.of_remove {backlog : Backlog} {id : AggregateId} {number : Nat} {a b : ω}
    {stalled : List StalledEnvelope} (hne : o.cursor b id + 1 ≠ number)
    (h : o.Stalls p (backlog.remove id number) id a b stalled) : o.Stalls p backlog id a b stalled := by
  cases h with
  | none absent => exact .none ((Backlog.find?_remove_of_ne hne).symm.trans absent)
  | one error found refuses =>
    exact .one error ((Backlog.find?_remove_of_ne hne).symm.trans found) refuses

theorem Drains.handBack {backlog : Backlog} {id : AggregateId} {a b : ω} {e : Envelope Json}
    (error : ProjectionError) (hfind : backlog.find? id (o.cursor a id + 1) = some e)
    (hstill : o.Still a b) (hrefuses : o.Refuses p a e b) :
    o.Drains p backlog id a [] [⟨e, error⟩] b where
  consumes := .nil hstill
  parked := by simp
  stalls := by
    refine .one error ?_ hrefuses
    rw [hstill.cursor]
    exact hfind

variable [Journal ω] {cursors : CursorStore ω}

theorem Tracks.still {name : String} (h : o.Tracks name cursors) : Frame o.Still where
  refl w := ⟨rfl, rfl, h.frame.refl w⟩
  trans hab hbc := ⟨hbc.cursor.trans hab.cursor, hbc.model.trans hab.model,
    h.frame.trans hab.later hbc.later⟩
  note record w := ⟨h.cursor_note record w, h.model_note record w, h.frame.note record w⟩

theorem Consumes.later (h : o.Lawful p cursors) {a b : ω} {es : List (Envelope Json)}
    (hes : o.Consumes p a es b) : o.later a b := by
  induction hes with
  | nil still => exact still.later
  | cons takes _ ih => exact h.frame.trans takes.later ih

theorem Refuses.still (h : o.Lawful p cursors) {a b c : ω} {e : Envelope Json}
    (hab : o.Refuses p a e b) (hbc : o.Still b c) : o.Refuses p a e c := by
  obtain ⟨v, error, hv, hhandles, herror, hstill⟩ := hab
  exact ⟨v, error, hv, hhandles, herror, h.still.trans hstill hbc⟩

theorem Refuses.earlier (h : o.Lawful p cursors) {a b c : ω} {e : Envelope Json}
    (hab : o.later a b) (hbc : o.Refuses p b e c) : o.Refuses p a e c := by
  obtain ⟨v, error, hv, hrest⟩ := hbc
  exact ⟨v, error, h.frame.trans hab hv, hrest⟩

theorem Stalls.earlier (h : o.Lawful p cursors) {backlog : Backlog} {id : AggregateId} {a b c : ω}
    {stalled : List StalledEnvelope} (hab : o.later a b) (hbc : o.Stalls p backlog id b c stalled) :
    o.Stalls p backlog id a c stalled := by
  cases hbc with
  | none absent => exact .none absent
  | one error found refuses => exact .one error found (refuses.earlier h hab)

theorem Drains.cons (h : o.Lawful p cursors) {backlog : Backlog} {id : AggregateId} {a b c : ω}
    {e : Envelope Json} {es : List (Envelope Json)} {stalled : List StalledEnvelope}
    (hfind : backlog.find? id (o.cursor a id + 1) = some e) (htakes : o.Takes p a e b)
    (hdrains : o.Drains p (backlog.remove id (o.cursor a id + 1)) id b es stalled c) :
    o.cursor a id + 1 ≤ o.cursor c id ∧ o.Drains p backlog id a (e :: es) stalled c := by
  obtain ⟨hmem, hid, hnumber⟩ := Backlog.mem_of_find? hfind
  have hconsumes : o.Consumes p a (e :: es) c := .cons htakes hdrains.consumes
  have hcursor := hconsumes.head.2
  rw [hid, hnumber] at hcursor
  refine ⟨hcursor, hconsumes, ?_, ?_⟩
  · rw [List.forall_mem_cons]
    refine ⟨⟨hid, hmem⟩, fun e' he' => ⟨(hdrains.parked e' he').1, ?_⟩⟩
    exact (List.mem_filter.mp (hdrains.parked e' he').2).1
  · exact (hdrains.stalls.of_remove (by omega)).earlier h htakes.later

end Observation

def Projection.report {ω : Type} (p : Projection ω) (e : Envelope Json) : AppliedEvent :=
  ⟨e.aggregateId, e.sequenceNumber, e.eventType, p.handles e.eventType⟩

namespace Runner
variable {ω σ : Type} [Journal ω] {o : Observation ω σ} {r : Runner ω}

theorem cursor_apply (h : o.Lawful r.projection r.cursors) (id : AggregateId) (w : ω) :
    r.cursor id w = (o.cursor w id, w) := by
  rw [cursor, bind_apply, pure_apply]
  exact h.get id w

/-- The next envelope is refused and nothing moves, or it is taken. -/
theorem applyNext_spec (h : o.Lawful r.projection r.cursors) {e : Envelope Json} {w : ω}
    (hnext : e.sequenceNumber = o.cursor w e.aggregateId + 1) :
    (∃ error w', r.applyNext e w = (.error error, w') ∧ o.Refuses r.projection w e w' ∧
        o.Still w w') ∨
      ∃ w', r.applyNext e w = (.ok (r.projection.report e), w') ∧ o.Takes r.projection w e w' := by
  rw [applyNext, bind_apply]
  have hcursor := h.cursor_update e.aggregateId e.sequenceNumber
  have hmodel := h.model_update e.aggregateId e.sequenceNumber
  have hlater := h.later_update e.aggregateId e.sequenceNumber
  by_cases hhandles : r.projection.handles e.eventType = true
  · rw [if_pos hhandles]
    have hreceive := h.receive e w
    cases hresult : r.projection.receive e w with
    | mk result w' =>
      rw [hresult] at hreceive
      cases result with
      | error error =>
        refine .inl ⟨error, w', rfl, ⟨w, error, h.frame.refl w, hhandles, ?_, hreceive⟩, hreceive⟩
        rw [hresult]
      | ok =>
        obtain ⟨hcursor', heffect, hlater'⟩ := hreceive
        refine .inr ⟨_, rfl, hnext, ?_, ?_, h.frame.trans hlater' (hlater w')⟩
        · exact (hcursor w').trans (by rw [hcursor'])
        · rw [if_pos hhandles]
          exact (hmodel w').symm ▸ heffect
  · rw [if_neg hhandles]
    refine .inr ⟨_, rfl, hnext, hcursor w, ?_, hlater w⟩
    rw [if_neg hhandles]
    exact hmodel w

/-- Draining takes parked envelopes of the stream while the next one is there. -/
theorem drainRounds_spec (h : o.Lawful r.projection r.cursors) (id : AggregateId) {rounds : Nat}
    {backlog : Backlog} (hsize : backlog.size < rounds) (w : ω) :
    ∃ es stalled rest w', r.drainRounds id rounds backlog w =
        ((⟨es.map r.projection.report, stalled⟩, rest), w') ∧
      o.Drains r.projection backlog id w es stalled w' ∧
      rest.prune id (o.cursor w' id) = backlog.prune id (o.cursor w' id + 1) := by
  induction rounds generalizing backlog w with
  | zero => contradiction
  | succ rounds ih =>
    rw [drainRounds, bind_apply, cursor_apply h]
    cases hfind : backlog.find? id (o.cursor w id + 1) with
    | none =>
      exact ⟨[], [], backlog, w, rfl, ⟨.nil (h.still.refl w), by simp, .none hfind⟩,
        Backlog.prune_succ hfind⟩
    | some e =>
      obtain ⟨hmem, hid, hnumber⟩ := Backlog.mem_of_find? hfind
      simp only [bind_apply]
      rcases applyNext_spec h (e := e) (w := w) (by rw [hnumber, hid]) with
        ⟨error, w', happly, hrefuses, hstill⟩ | ⟨w', happly, htakes⟩
      · rw [happly]
        have hreported := h.still.note ⟨.warn, "parked envelope failed; handing it back",
          [("projection", .text r.name), ("aggregate_id", .text id.text),
            ("sequence", .number (o.cursor w id + 1)), ("error", .text error.message)]⟩ w'
        have hleft := h.still.trans hstill hreported
        refine ⟨[], [⟨e, error⟩], backlog.remove id (o.cursor w id + 1), _, rfl, ?_, ?_⟩
        · exact .handBack error hfind hleft (hrefuses.still h hreported)
        · rw [hleft.cursor, Backlog.prune_succ Backlog.find?_remove_self]
          exact Backlog.prune_remove (Nat.le_refl _)
      · rw [happly]
        have hfewer : (backlog.remove id (o.cursor w id + 1)).size < rounds :=
          Nat.lt_of_lt_of_le (Backlog.size_remove_lt hfind) (Nat.lt_succ_iff.mp hsize)
        obtain ⟨es, stalled, rest, w'', hrounds, hdrains, hrest⟩ := ih hfewer w'
        obtain ⟨hcursor, hdrains'⟩ := hdrains.cons h hfind htakes
        refine ⟨e :: es, stalled, rest, w'', ?_, hdrains', ?_⟩
        · simp only [bind_apply, hrounds]
          rfl
        · rw [hrest]
          exact Backlog.prune_remove (Nat.le_succ_of_le hcursor)

/-- Draining a stream leaves only what is further than the place after the cursor. -/
theorem drain_spec (h : o.Lawful r.projection r.cursors) (id : AggregateId) (w : ω) :
    ∃ es stalled w', r.drain id w = ((⟨es.map r.projection.report, stalled⟩,
        r.withBacklog (r.backlog.prune id (o.cursor w' id + 1))), w') ∧
      o.Drains r.projection r.backlog id w es stalled w' := by
  obtain ⟨es, stalled, rest, w', hrounds, hdrains, hrest⟩ :=
    drainRounds_spec h id (Nat.lt_succ_self r.backlog.size) w
  refine ⟨es, stalled, w', ?_, hdrains⟩
  rw [drain, bind_apply, hrounds]
  simp only [bind_apply, cursor_apply h, hrest]
  rfl

/-- Submitting an envelope: refused outright, behind, ahead, or next in its stream. -/
inductive Applies (o : Observation ω σ) (r : Runner ω) (e : Envelope Json) (w : ω) :
    (Except ProjectionError ApplyOutcome × Runner ω) × ω → Prop
  | unnumbered (hzero : e.sequenceNumber = 0) :
      Applies o r e w ((.error (.nonMonotonicSequence (o.cursor w e.aggregateId) 0), r), w)
  | duplicate {w' : ω} (hbehind : e.sequenceNumber ≤ o.cursor w e.aggregateId)
      (still : o.Still w w') : Applies o r e w ((.ok .duplicate, r), w')
  | parked {w' : ω} (hahead : o.cursor w e.aggregateId + 1 < e.sequenceNumber)
      (still : o.Still w w') :
      Applies o r e w ((.ok .parked, r.withBacklog (r.backlog.park e)), w')
  | refused (error : ProjectionError) {w' : ω}
      (hnext : e.sequenceNumber = o.cursor w e.aggregateId + 1)
      (refuses : o.Refuses r.projection w e w') (still : o.Still w w') :
      Applies o r e w ((.error error, r), w')
  | applied {w' : ω} (es : List (Envelope Json)) (stalled : List StalledEnvelope)
      (consumes : o.Consumes r.projection w (e :: es) w')
      (hparked : ∀ e' ∈ es, e'.aggregateId = e.aggregateId ∧ e' ∈ r.backlog.envelopes)
      (stalls : o.Stalls r.projection r.backlog e.aggregateId w w' stalled) :
      Applies o r e w ((.ok (.applied ⟨(e :: es).map r.projection.report, stalled⟩),
        r.withBacklog (r.backlog.prune e.aggregateId (o.cursor w' e.aggregateId + 1))), w')

theorem apply_cases (h : o.Lawful r.projection r.cursors) (e : Envelope Json) (w : ω) :
    Applies o r e w (r.apply e w) := by
  rw [apply, bind_apply, cursor_apply h]
  simp only []
  by_cases hzero : e.sequenceNumber = 0
  · rw [if_pos hzero, hzero]
    exact .unnumbered hzero
  rw [if_neg hzero]
  by_cases hbehind : e.sequenceNumber ≤ o.cursor w e.aggregateId
  · rw [if_pos hbehind]
    exact .duplicate hbehind (h.still.note _ w)
  rw [if_neg hbehind]
  by_cases hahead : e.sequenceNumber > o.cursor w e.aggregateId + 1
  · rw [if_pos hahead]
    exact .parked hahead (h.still.note _ w)
  rw [if_neg hahead, bind_apply]
  have hnext : e.sequenceNumber = o.cursor w e.aggregateId + 1 := by omega
  rcases applyNext_spec h hnext with
    ⟨error, w', happly, hrefuses, hstill⟩ | ⟨w', happly, htakes⟩
  · rw [happly]
    exact .refused error hnext hrefuses hstill
  · obtain ⟨es, stalled, w'', hdrain, hdrains⟩ := drain_spec h e.aggregateId w'
    rw [happly]
    simp only [bind_apply, hdrain]
    exact .applied es stalled (.cons htakes hdrains.consumes) hdrains.parked
      (hdrains.stalls.earlier h htakes.later)

/-- Nothing parked is next in its stream. -/
def Waits (o : Observation ω σ) (r : Runner ω) (w : ω) : Prop :=
  ∀ e ∈ r.backlog.envelopes, o.cursor w e.aggregateId + 1 < e.sequenceNumber

/-- If nothing parked is next, draining does nothing at all. -/
theorem drain_of_waits (h : o.Lawful r.projection r.cursors) {w : ω} (hwaits : r.Waits o w)
    (id : AggregateId) : r.drain id w = ((.none, r), w) := by
  have hnext : r.backlog.find? id (o.cursor w id + 1) = none := by
    apply Backlog.find?_eq_none
    rintro e hmem rfl
    exact Nat.ne_of_gt (hwaits e hmem)
  have hprune : r.backlog.prune id (o.cursor w id) = r.backlog := by
    apply Backlog.prune_eq_self
    rintro e hmem rfl
    exact Nat.lt_of_succ_lt (hwaits e hmem)
  rw [drain, bind_apply, drainRounds, bind_apply, cursor_apply h]
  simp only [hnext, pure_apply, bind_apply, cursor_apply h, hprune]
  rfl

theorem retryParked_of_waits (h : o.Lawful r.projection r.cursors) {w : ω} (hwaits : r.Waits o w) :
    r.retryParked w = ((.none, r), w) := by
  have hall (ids : List AggregateId) : r.drainAll ids w = ((.none, r), w) := by
    induction ids with
    | nil => rfl
    | cons id ids ih =>
      rw [drainAll, bind_apply, drain_of_waits h hwaits]
      simp only [bind_apply, ih]
      rfl
  exact hall _

/-- Whatever is submitted, what stays parked waits for an envelope before it. -/
theorem waits_apply (h : o.Lawful r.projection r.cursors) {e : Envelope Json} {w : ω}
    (hwaits : r.Waits o w) : (r.apply e w).1.2.Waits o (r.apply e w).2 := by
  have hcases := apply_cases h e w
  generalize r.apply e w = step at hcases ⊢
  cases hcases with
  | unnumbered => exact hwaits
  | duplicate _ still =>
    intro e' hmem
    rw [still.cursor]
    exact hwaits e' hmem
  | refused _ _ _ still =>
    intro e' hmem
    rw [still.cursor]
    exact hwaits e' hmem
  | parked hahead still =>
    intro e' hmem
    rw [still.cursor]
    rcases Backlog.mem_park.mp hmem with rfl | ⟨hmem, _⟩
    · exact hahead
    · exact hwaits e' hmem
  | @applied w' es stalled consumes hparked _ =>
    intro e' hmem
    obtain ⟨hmem, hpassed⟩ := Backlog.mem_prune.mp hmem
    by_cases hid : e'.aggregateId = e.aggregateId
    · rw [hid]
      exact Nat.lt_of_not_le fun hle => hpassed ⟨hid, hle⟩
    · have hown : ∀ e'' ∈ e :: es, e''.aggregateId = e.aggregateId := by
        rw [List.forall_mem_cons]
        exact ⟨rfl, fun e'' he'' => (hparked e'' he'').1⟩
      rw [consumes.cursor_eq hown hid]
      exact hwaits e' hmem

end Runner

end IdentityLedger
