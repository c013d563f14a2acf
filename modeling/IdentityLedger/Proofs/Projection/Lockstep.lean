import IdentityLedger.Proofs.Projection.Invariant

/-!
# Runners in lockstep

Two states may be alike in all that one runner can see. If what it reads and what it does by
single steps comes out the same from both, and leaves them alike, then so does everything that
is built from these steps: a runner is a function of what it can see.
-/
namespace IdentityLedger
variable {ω α β : Type} {R : ω → ω → Prop}

/-- From states that are alike a computation has the same result, and it leaves them alike. -/
def Respects (R : ω → ω → Prop) (x : StateM ω α) : Prop :=
  ∀ ⦃w v⦄, R w v → (x w).1 = (x v).1 ∧ R (x w).2 (x v).2

namespace Respects
variable {x : StateM ω α} {f : α → StateM ω β}

theorem pure (a : α) : Respects R (pure a : StateM ω α) := fun _ _ h => ⟨rfl, h⟩

theorem bind_of {P : α → Prop} (hx : Respects R x) (hP : ∀ w, P (x w).1)
    (hf : ∀ a, P a → Respects R (f a)) : Respects R (x >>= f) := by
  intro w v h
  obtain ⟨hresult, hstate⟩ := hx h
  rw [bind_apply, bind_apply, hresult]
  exact hf _ (hP v) hstate

theorem bind (hx : Respects R x) (hf : ∀ a, Respects R (f a)) : Respects R (x >>= f) :=
  hx.bind_of (fun _ => trivial) fun a (_ : True) => hf a

end Respects

namespace Runner
variable [Journal ω] {r : Runner ω}

/-- Reports, cursors that are read or moved and envelopes that are received keep states alike
and have the same result in both. -/
structure Lockstep (r : Runner ω) (R : ω → ω → Prop) : Prop where
  note : ∀ record {w v}, R w v → R (Journal.note record w) (Journal.note record v)
  get : ∀ id, Respects R (r.cursors.get r.name id)
  update : ∀ id number, Respects R (r.cursors.update r.name id number)
  receive : ∀ e, Respects R (r.projection.receive e)

namespace Lockstep

theorem withBacklog (h : r.Lockstep R) (backlog : Backlog) : (r.withBacklog backlog).Lockstep R :=
  ⟨h.note, h.get, h.update, h.receive⟩

theorem report (h : r.Lockstep R) (level : Level) (message : String)
    (fields : List (String × FieldValue)) : Respects R (Journal.report level message fields) :=
  fun _ _ hR => ⟨rfl, h.note _ hR⟩

theorem cursor (h : r.Lockstep R) (id : AggregateId) : Respects R (r.cursor id) :=
  (h.get id).bind fun _ => .pure _

theorem applyNext (h : r.Lockstep R) (e : Envelope Json) : Respects R (r.applyNext e) := by
  have hreceive : Respects R (if r.projection.handles e.eventType then r.projection.receive e
      else pure (.ok ())) := by
    split
    · exact h.receive e
    · exact .pure _
  refine hreceive.bind fun result => ?_
  cases result with
  | error error => exact .pure _
  | ok => exact (h.update e.aggregateId e.sequenceNumber).bind fun _ => .pure _

theorem drainRounds (h : r.Lockstep R) (id : AggregateId) (rounds : Nat) (backlog : Backlog) :
    Respects R (r.drainRounds id rounds backlog) := by
  induction rounds generalizing backlog with
  | zero => exact .pure _
  | succ rounds ih =>
    rw [Runner.drainRounds]
    refine (h.cursor id).bind fun last => ?_
    dsimp only
    cases backlog.find? id (last + 1) with
    | none => exact .pure _
    | some e =>
      refine (h.applyNext e).bind fun result => ?_
      cases result with
      | ok event => exact (ih _).bind fun _ => .pure _
      | error error => exact (h.report _ _ _).bind fun _ => .pure _

theorem drain (h : r.Lockstep R) (id : AggregateId) : Respects R (r.drain id) :=
  (h.drainRounds id _ _).bind fun _ => (h.cursor id).bind fun _ => .pure _

theorem apply (h : r.Lockstep R) (e : Envelope Json) : Respects R (r.apply e) := by
  refine (h.cursor e.aggregateId).bind fun last => ?_
  dsimp only
  split
  · exact .pure _
  split
  · exact (h.report _ _ _).bind fun _ => .pure _
  split
  · exact (h.report _ _ _).bind fun _ => .pure _
  refine (h.applyNext e).bind fun result => ?_
  cases result with
  | error error => exact .pure _
  | ok event => exact (h.drain e.aggregateId).bind fun _ => .pure _

theorem drainAll (h : r.Lockstep R) (ids : List AggregateId) : Respects R (r.drainAll ids) := by
  induction ids generalizing r with
  | nil => exact .pure _
  | cons id ids ih =>
    -- The rest is drained by the runner that the first drain returns: this one, with what it
    -- has left parked.
    refine (h.drain id).bind_of (P := fun a => a.2 = r.withBacklog a.2.backlog) (fun _ => rfl) ?_
    rintro ⟨first, r'⟩ hrunner
    have hr' : r'.Lockstep R := by
      rw [show r' = r.withBacklog r'.backlog from hrunner]
      exact h.withBacklog _
    exact (ih hr').bind fun _ => .pure _

end Lockstep

omit [Journal ω] in
theorem name_of_withBacklog {r' : Runner ω} {backlog : Backlog}
    (hsame : r' = r.withBacklog backlog) : r'.name = r.name := by
  rw [hsame]
  rfl

theorem apply_runner (r : Runner ω) (e : Envelope Json) (w : ω) :
    (r.apply e w).1.2 = r.withBacklog (r.apply e w).1.2.backlog := by
  have hstable : r.Stable (fun _ => True) fun _ : ω => True :=
    ⟨fun _ _ _ => trivial, fun _ _ _ => trivial, fun _ _ _ => trivial⟩
  exact (hstable.apply ⟨rfl, fun _ _ => trivial, trivial⟩ trivial).1.runner

theorem drainAll_runner (r : Runner ω) (ids : List AggregateId) (w : ω) :
    (r.drainAll ids w).1.2 = r.withBacklog (r.drainAll ids w).1.2.backlog := by
  have hstable : r.Stable (fun _ => True) fun _ : ω => True :=
    ⟨fun _ _ _ => trivial, fun _ _ _ => trivial, fun _ _ _ => trivial⟩
  exact (hstable.drainAll ⟨rfl, fun _ _ => trivial, trivial⟩ ids).1.runner

theorem name_apply (r : Runner ω) (e : Envelope Json) (w : ω) : (r.apply e w).1.2.name = r.name := by
  rw [r.apply_runner]
  rfl

theorem name_drainAll (r : Runner ω) (ids : List AggregateId) (w : ω) :
    (r.drainAll ids w).1.2.name = r.name := by
  rw [r.drainAll_runner]
  rfl

end Runner

end IdentityLedger
