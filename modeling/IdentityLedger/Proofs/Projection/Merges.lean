import IdentityLedger.Proofs.Projection.Conservation
import IdentityLedger.Proofs.Projection.Tally
import IdentityLedger.Proofs.Projection.Workshop

/-!
# Which attempts go uncounted

A failed retry is not counted if its update has been queued again in the meantime. This takes a
queued update that is parked as well, and so a cursor that was moved back below it: a rebuild
that broke off. In a run without one, the queue counts every refusal.
-/
namespace IdentityLedger

namespace Registry
variable {ω : Type} [Journal ω] {cursor : String → ω → AggregateId → Nat}
variable {seen : List (Envelope Json)} {names : List String} {failure f : FailedUpdate}
variable {taken : List FailedUpdate} {r : Runner ω} {runners : List (Runner ω)} {reg : Registry ω}
variable {o : Outbox} {w : ω}

section
variable {log : List (Envelope Json)}

/-- A retry queues no other failure that has been taken out of the queue as well: what is handed
back was parked, and nothing that is owed is. -/
theorem Accounts.retryOne_queues (hlog : Gapless log) (hids : (log.map Envelope.eventId).Nodup)
    (h : Accounts cursor log seen names (failure :: taken) runners o w)
    (he : failure.envelope ∈ log) (hf : f ∈ taken) (hother : f.update ≠ failure.update)
    (hfresh : ¬o.Holds f.projection f.envelope) :
    ¬(Registry.retryOne failure runners o w).1.2.2.Holds f.projection f.envelope := by
  induction runners generalizing names with
  | nil => exact hfresh
  | cons r runners ih =>
    obtain ⟨_, ho, haccounts⟩ := h
    rw [List.forall_mem_cons] at haccounts
    obtain ⟨hr, hrunners⟩ := haccounts
    by_cases hname : r.name = failure.projection
    · obtain ⟨resolved, r', o', w', hone, hdealt⟩ := dealt_retryOne hlog hids ho hr he hname runners
      rw [hone]
      intro hholds
      rcases (hdealt.gains.holds_iff _ _).mp hholds with hheld | ⟨hproj, hhanded⟩
      · exact hfresh hheld
      rcases ((hr.conserves hlog he).returned _ hhanded).1 with hsame | hparked
      · exact hother (Prod.ext (hproj.trans hname) hsame)
      · have howed : Owes (failure :: taken) o r.name f.envelope :=
          .inl (hproj ▸ List.mem_map_of_mem (List.mem_cons_of_mem _ hf))
        exact Nat.not_lt_of_le (hr.ready _ howed) (hr.waits _ hparked)
    · rw [Registry.retryOne, if_neg hname]
      exact ih ⟨rfl, ho, hrunners⟩

theorem Accounts.fates_ne_merged (hlog : Gapless log) (hids : (log.map Envelope.eventId).Nodup)
    (hnames : names.Nodup) (h : Accounts cursor log seen names taken runners o w)
    (htaken : ∀ f ∈ taken, f.envelope ∈ log) (hkeys : (taken.map FailedUpdate.key).Nodup)
    (hfresh : ∀ f ∈ taken, ¬o.Holds f.projection f.envelope) :
    ∀ f ∈ fates taken runners o w, f.2 ≠ .returned true := by
  induction taken generalizing runners o w with
  | nil => exact fun _ hf => absurd hf List.not_mem_nil
  | cons failure taken ih =>
    rw [List.forall_mem_cons] at htaken hfresh
    rw [List.map_cons, List.nodup_cons] at hkeys
    have hafter := (h.retryOne hlog hids hnames htaken.1).1
    rw [fates, List.forall_mem_cons]
    constructor
    · have habsent : (o.queued? failure.projection failure.envelope.eventId).isSome = false := by
        rw [Option.isSome_eq_false_iff, Option.isNone_iff_eq_none]
        by_contra hqueued
        obtain ⟨found, hfound⟩ := Option.ne_none_iff_exists'.mp hqueued
        exact hfresh.1 (h.distinct.holds_of_queued hids htaken.1 hfound)
      rw [fate, habsent]
      split
      · exact fun heq => Fate.noConfusion heq
      split
      · exact fun heq => Bool.noConfusion (Fate.returned.inj heq)
      · exact fun heq => Fate.noConfusion heq
    · refine ih hafter htaken.2 hkeys.2 fun f hf => ?_
      refine h.retryOne_queues hlog hids htaken.1 hf (fun hsame => ?_) (hfresh.2 f hf)
      have hkey : f.key = failure.key :=
        congrArg (fun update => (update.1, update.2.eventId)) hsame
      exact hkeys.1 (hkey ▸ List.mem_map_of_mem hf)

theorem Balanced.mergedOf_retried (hlog : Gapless log) (hids : (log.map Envelope.eventId).Nodup)
    (hnames : names.Nodup) (h : Balanced cursor log seen names [] reg.runners reg.outbox w)
    (key : String × Uuid) : mergedOf key (reg.retried w) = 0 := by
  have hnever := h.take.fates_ne_merged hlog hids hnames h.distinct.known h.distinct.keys
    fun f _ => List.not_mem_nil
  rw [mergedOf, List.countP_eq_zero]
  intro f hf hmerged
  exact hnever f hf (of_decide_eq_true hmerged).2

end

variable {log : EventLog}

theorem Balanced.rebuild (h : Balanced cursor log.envelopes seen names [] reg.runners reg.outbox w)
    {read : Except EventStoreError Nat}
    (hends : breaksOff (reg.rebuild (log.copy read) w).1.1 = false) :
    let after := reg.rebuild (log.copy read) w
    ∃ seen, Balanced cursor log.envelopes seen names [] after.1.2.runners after.1.2.outbox
      after.2 := by
  rcases rebuilds_rebuild reg log read w with ⟨error, hafter⟩ | hrebuilds
  · rw [hafter]
    exact ⟨seen, h⟩
  generalize reg.rebuild (log.copy read) w = step at hends hrebuilds
  obtain ⟨⟨result, runners, outbox⟩, w'⟩ := step
  obtain ⟨hparked, hfailed⟩ := hrebuilds.complete hends
  have hstart : ∀ r ∈ runners, (Observation.ofName cursor r.name).Lawful r.projection r.cursors ∧
      r.backlog.envelopes = [] := by
    intro r' hmem
    obtain ⟨r, hr, hsame⟩ := hrebuilds.kept r' hmem
    refine ⟨?_, hparked r' hmem⟩
    rw [hsame]
    exact (h.accounts r hr).lawful
  have hnone : outbox.failed = [] := by
    refine List.eq_nil_iff_forall_not_mem.mpr fun f hf => hfailed f hf ?_
    exact h.named ▸ h.owned f (hrebuilds.thins.sublist.mem hf)
  have hnames : runners.map Runner.name = names := hrebuilds.names.trans h.named
  obtain ⟨failed, updates⟩ := outbox
  subst hnone
  exact ⟨[], hnames ▸ .start hstart log.envelopes updates w'⟩

/-- No rebuild of a run breaks off. -/
def rebuildsEnd (log : EventLog) : List RegistryCall → Registry ω → ω → Bool
  | [], _, _ => true
  | call :: calls, reg, w =>
    let ends := match call with
      | .rebuild read => !breaksOff (reg.rebuild (log.copy read) w).1.1
      | .dispatch _ | .retryFailed | .catchUp _ => true
    let after := reg.answer log call w
    ends && rebuildsEnd log calls after.1 after.2

/-- As long as no rebuild breaks off, nothing is merged. -/
theorem Balanced.tally_mergedIn (hlog : Gapless log.envelopes)
    (hids : (log.envelopes.map Envelope.eventId).Nodup) (hnames : names.Nodup)
    (h : Balanced cursor log.envelopes seen names [] reg.runners reg.outbox w)
    {calls : List RegistryCall} (hcalls : ∀ e, .dispatch e ∈ calls → e ∈ log.envelopes)
    (hends : rebuildsEnd log calls reg w) (key : String × Uuid) :
    tally (mergedIn key) key log calls 0 reg w = 0 := by
  induction calls generalizing seen reg w with
  | nil => rfl
  | cons call calls ih =>
    have hnothing : (if endsIn key log call reg w then 0 else 0) + mergedIn key call reg w = 0 := by
      rw [ite_self, Nat.zero_add]
      cases call with
      | retryFailed => exact h.mergedOf_retried hlog hids hnames key
      | dispatch e | catchUp read | rebuild read => rfl
    obtain ⟨hfirst, hrest⟩ := (Bool.and_eq_true _ _).mp hends
    have hcall : ∀ e, call = .dispatch e → e ∈ log.envelopes :=
      fun e he => hcalls e (he ▸ List.mem_cons_self)
    obtain ⟨seen', hafter⟩ : let after := reg.answer log call w
        ∃ seen, Balanced cursor log.envelopes seen names [] after.1.runners after.1.outbox
          after.2 := by
      cases call with
      | rebuild read => exact h.rebuild (by simpa using hfirst)
      | dispatch e | retryFailed | catchUp read =>
        exact ⟨_, h.answer hlog hids hnames hcall fun _ heq => RegistryCall.noConfusion heq⟩
    rw [tally, hnothing]
    exact ih hafter (fun e he => hcalls e (List.mem_cons_of_mem _ he)) hrest

end Registry

/-- A model with a record of what has been refused. -/
structure Audit (σ : Type) where
  model : σ
  refused : List (String × Uuid)

def Projection.audited {σ : Type} (p : Projection σ) : Projection (Audit σ) where
  name := p.name
  handles := p.handles
  receive e audit :=
    let (answer, model) := p.receive e audit.model
    (answer, ⟨model, audit.refused ++ refusal p.name e answer⟩)
  reset audit :=
    let (answer, model) := p.reset audit.model
    (answer, { audit with model })

namespace Workshop
variable {σ : Type} (home : String → Nat)

/-- The refusals that are on record. -/
def ledger : Ledger (Workshop (Audit σ)) := fun w => w.model.refused

theorem audited_runner (p : Projection σ) : (runner home p.audited).Audited ledger where
  note _ _ := rfl
  get _ _ := rfl
  update _ _ _ := rfl
  receive _ _ := rfl

theorem audited_start (projections : List (Projection σ)) (bus : Bus ProjectionUpdated) :
    Registry.Audited ledger ⟨projections.map fun p => runner home p.audited, ⟨[], bus⟩⟩ where
  note _ _ := rfl
  runners r hmem := by
    obtain ⟨p, _, rfl⟩ := List.mem_map.mp hmem
    exact audited_runner home p
  tidy := ⟨fun _ hmem => absurd hmem List.not_mem_nil, List.nodup_nil⟩

theorem balanced_start (projections : List (Projection σ)) (log : List (Envelope Json))
    (bus : Bus ProjectionUpdated) (w : Workshop σ) :
    Registry.Balanced (cursor home) log [] (projections.map Projection.name) []
      (projections.map (runner home)) ⟨[], bus⟩ w :=
  .start_map (runner home) (fun p => ⟨lawful home p, rfl⟩) projections log bus w

end Workshop

/-- Whatever projections do with the events of a gapless log, and whenever they fail, in every
run of dispatches, retries, catch-ups and rebuilds: the attempts of each queued failure, and
the failed retries of it that were merged, are together the refusals since it was first queued,
those in a rebuild aside. As long as no rebuild breaks off, the attempts are these refusals.

Attempts are taken below the bound of their counter: it has 32 bits, so this speaks of runs that
refuse no update `2 ^ 32` times. -/
theorem answerAll_attempts {σ : Type} (home : String → Nat) (projections : List (Projection σ))
    (log : EventLog) (hlog : Gapless log.envelopes)
    (hids : (log.envelopes.map Envelope.eventId).Nodup) (bus : Bus ProjectionUpdated)
    (calls : List RegistryCall) (hcalls : ∀ e, .dispatch e ∈ calls → e ∈ log.envelopes)
    (model : σ) :
    let reg : Registry (Workshop (Audit σ)) :=
      ⟨projections.map fun p => Workshop.runner home p.audited, ⟨[], bus⟩⟩
    let start : Workshop (Audit σ) := .start ⟨model, []⟩
    let after := reg.answerAll log calls start
    let refusals (f : FailedUpdate) := Registry.refusals Workshop.ledger f.key log calls reg start
    (∀ f ∈ after.1.failures, f.attempts + Registry.merges f.key log calls reg start = refusals f) ∧
      ((projections.map Projection.name).Nodup → Registry.rebuildsEnd log calls reg start →
        ∀ f ∈ after.1.failures, f.attempts = refusals f) := by
  intro reg start after refusals
  have hpositive : ∀ e ∈ log.envelopes, 0 < e.sequenceNumber :=
    fun e he => (hlog.getElem?_streamOf he).1
  have hall : ∀ f ∈ after.1.failures,
      f.attempts + Registry.merges f.key log calls reg start = refusals f := by
    intro f hf
    obtain ⟨hafter, hcount⟩ := (Workshop.audited_start home projections bus).answerAll hpositive
      (w := start) hcalls (Nat.zero_add 0)
    rw [Outbox.attemptsOf_of_mem hafter.tidy.keys hf] at hcount
    exact hcount
  refine ⟨hall, fun hnames hends f hf => ?_⟩
  have haudited : (projections.map Projection.audited).map Projection.name =
      projections.map Projection.name := by
    rw [List.map_map]
    rfl
  have hstart := Workshop.balanced_start home (projections.map Projection.audited) log.envelopes bus
    start
  rw [haudited, List.map_map] at hstart
  have hmerges : Registry.merges f.key log calls reg start = 0 :=
    Registry.Balanced.tally_mergedIn hlog hids hnames hstart hcalls hends f.key
  rw [← hall f hf, hmerges, Nat.add_zero]

/-- A projection that counts the envelopes it is given, and refuses the ones at some places. -/
def wearyProjection (name : String) (refused : List Nat) : Projection Nat where
  name
  handles _ := true
  receive _ count := (if count ∈ refused then .error (.store "unavailable") else .ok (), count + 1)
  reset count := (.ok (), count)

/-- A rebuild from the first event succeeds, and the second one is refused by a dispatch and by
two retries. -/
theorem answerAll_attempts_mintedLog :
    let projections := [wearyProjection "weary" [1, 2, 3]]
    let calls :=
      .rebuild (.ok 1) :: mintedLog.envelopes.map .dispatch ++ [.retryFailed, .retryFailed]
    let reg : Registry (Workshop (Audit Nat)) :=
      ⟨projections.map fun p => Workshop.runner (fun _ => 0) p.audited, ⟨[], .new⟩⟩
    let start : Workshop (Audit Nat) := .start ⟨0, []⟩
    let after := reg.answerAll mintedLog calls start
    let refusals (f : FailedUpdate) :=
      Registry.refusals Workshop.ledger f.key mintedLog calls reg start
    Gapless mintedLog.envelopes ∧ (mintedLog.envelopes.map Envelope.eventId).Nodup ∧
      (∀ e, .dispatch e ∈ calls → e ∈ mintedLog.envelopes) ∧
      (projections.map Projection.name).Nodup ∧ Registry.rebuildsEnd mintedLog calls reg start ∧
      after.1.failures.map FailedUpdate.attempts = [3] ∧
      ∀ f ∈ after.1.failures, f.attempts = refusals f := by
  intro projections calls reg start after refusals
  have hlog := mintedLog_written.lawful.consistent.gapless
  have hids : (mintedLog.envelopes.map Envelope.eventId).Nodup := by decide +kernel
  have hcalls : ∀ e, .dispatch e ∈ calls → e ∈ mintedLog.envelopes := by
    intro e he
    simpa [calls] using he
  have hnames : (projections.map Projection.name).Nodup := by decide
  have hends : Registry.rebuildsEnd mintedLog calls reg start := by decide +kernel
  refine ⟨hlog, hids, hcalls, hnames, hends, by decide +kernel, ?_⟩
  exact (answerAll_attempts (fun _ => 0) projections mintedLog hlog hids .new calls hcalls 0).2
    hnames hends

/-- The first event is refused, then taken, so that it stays queued, and the second one is
refused twice. A rebuild breaks off at the first event and leaves the second one queued, to be
parked by the next dispatch. A retry applies the first event, refuses the second one as it is
drained, and refuses it once more as it is retried: four refusals, and three attempts. -/
theorem answerAll_miscounts_mintedLog :
    let projection := wearyProjection "weary" [0, 2, 3, 4, 6, 7]
    let first := mintedLog.envelopes.take 1
    let second := mintedLog.envelopes.drop 1
    let calls := (first ++ first ++ second ++ second).map .dispatch ++
      .rebuild (.ok 2) :: second.map .dispatch ++ [.retryFailed]
    let reg : Registry (Workshop (Audit Nat)) :=
      ⟨[Workshop.runner (fun _ => 0) projection.audited], ⟨[], .new⟩⟩
    let start : Workshop (Audit Nat) := .start ⟨0, []⟩
    let after := reg.answerAll mintedLog calls start
    (mintedLog.envelopes.map Envelope.eventId).Nodup ∧
      (∀ e, .dispatch e ∈ calls → e ∈ mintedLog.envelopes) ∧
      after.1.failures.map (fun f => (f.envelope.sequenceNumber, f.attempts)) = [(2, 3)] ∧
      ∀ f ∈ after.1.failures,
        Registry.refusals Workshop.ledger f.key mintedLog calls reg start = 4 := by
  intro projection first second calls reg start after
  have hcalls : ∀ e, .dispatch e ∈ calls → e ∈ mintedLog.envelopes := by
    intro e he
    have hpart : e ∈ first ∨ e ∈ second := by
      simp only [calls, List.map_append, List.mem_append, List.mem_cons, List.mem_map,
        RegistryCall.dispatch.injEq, exists_eq_right, List.not_mem_nil, reduceCtorEq] at he
      tauto
    exact hpart.elim List.mem_of_mem_take List.mem_of_mem_drop
  refine ⟨by decide +kernel, hcalls, by decide +kernel, by decide +kernel⟩

end IdentityLedger
