import IdentityLedger.Proofs.Projection.Attempts
import IdentityLedger.Proofs.Projection.Convergence

/-!
# A tally of each update

For each update a tally is kept along a run of calls, which starts over when the update leaves
the queue: when a retry of it does not fail, or when a rebuild discards it. What the queue has
as its attempts, and the retries that were merged, add up to the refusals since it was first
queued, those in a rebuild aside.
-/
namespace IdentityLedger
variable {ω : Type}

/-- An outbox as a rebuild leaves it: each update is gone, or as it was. -/
structure Outbox.Thins (o o' : Outbox) : Prop where
  sublist : o'.failed.Sublist o.failed
  queued : ∀ key : String × Uuid,
    o'.queued? key.1 key.2 = none ∨ o'.queued? key.1 key.2 = o.queued? key.1 key.2

namespace Outbox
variable {o o' o'' : Outbox}

theorem Thins.refl (o : Outbox) : o.Thins o := ⟨.refl _, fun _ => .inr rfl⟩

theorem Thins.trans (h : o.Thins o') (h' : o'.Thins o'') : o.Thins o'' where
  sublist := h'.sublist.trans h.sublist
  queued key := (h'.queued key).elim .inl fun heq => (h.queued key).imp heq.trans heq.trans

theorem Thins.tidy (h : o.Thins o') (ho : o.Tidy) : o'.Tidy where
  numbered f hf := ho.numbered f (h.sublist.mem hf)
  keys := ho.keys.sublist (h.sublist.map _)

theorem thins_discard (o : Outbox) (name : String) :
    o.Thins { o with failed := o.failed.filter fun f => f.projection ≠ name } where
  sublist := List.filter_sublist
  queued key := by
    by_cases hname : key.1 = name
    · refine .inl (queued?_eq_none.mpr fun hmem => ?_)
      obtain ⟨f, hf, rfl⟩ := List.mem_map.mp hmem
      exact of_decide_eq_true (List.mem_filter.mp hf).2 hname
    · refine .inr ?_
      rw [queued?, queued?, List.find?_filter]
      congr 1
      funext f
      simp only [FailedUpdate.isFor]
      by_cases hprojection : f.projection = key.1 <;> simp [hprojection, hname]

end Outbox

namespace Registry
variable {ledger : Ledger ω} {reg : Registry ω} {w : ω} {key : String × Uuid}

/-- The failures and their fates are those of the queue: an update is brought back with its
attempts, unless a retry of it has not failed. -/
theorem broughtBack_of_nodup (key : String × Uuid) {retried : List (FailedUpdate × Fate)}
    (hkeys : (retried.map fun f => f.1.key).Nodup) (o : Outbox)
    (hqueue : o.failed = retried.map Prod.fst) : broughtBack key retried =
      if retried.any fun f => f.1.key = key ∧ ¬f.2.isReturned then 0 else o.attemptsOf key := by
  induction retried generalizing o with
  | nil =>
    rw [Outbox.attemptsOf, Outbox.queued?, hqueue]
    rfl
  | cons f retried ih =>
    rw [List.map_cons, List.nodup_cons] at hkeys
    have hrest := ih hkeys.2 { o with failed := retried.map Prod.fst } rfl
    rw [broughtBack, hrest, List.any_cons, Outbox.attemptsOf, Outbox.attemptsOf,
      Outbox.queued?, Outbox.queued?, hqueue, List.map_cons]
    by_cases hkey : f.1.key = key
    · have hnone : retried.any (fun f => f.1.key = key ∧ ¬f.2.isReturned) = false := by
        rw [List.any_eq_false]
        intro f' hf' hboth
        have hsame : f'.1.key = key := (of_decide_eq_true hboth).1
        exact hkeys.1 (List.mem_map.mpr ⟨f', hf', hsame.trans hkey.symm⟩)
      have habsent : (retried.map Prod.fst).find? (FailedUpdate.isFor key.1 key.2) = none := by
        rw [List.find?_eq_none]
        intro f' hf' hfor
        obtain ⟨f'', hf'', rfl⟩ := List.mem_map.mp hf'
        have hsame : f''.1.key = key := FailedUpdate.isFor_iff.mp hfor
        exact hkeys.1 (List.mem_map.mpr ⟨f'', hf'', hsame.trans hkey.symm⟩)
      rw [hnone, habsent, List.find?_cons_of_pos (FailedUpdate.isFor_iff.mpr hkey)]
      cases hreturned : f.2.isReturned <;> simp [hkey]
    · have hfor : ¬f.1.isFor key.1 key.2 = true := fun hfor => hkey (FailedUpdate.isFor_iff.mp hfor)
      have hhead : decide (f.1.key = key ∧ ¬f.2.isReturned) = false :=
        decide_eq_false fun hboth => hkey hboth.1
      rw [List.find?_cons_of_neg hfor, hhead, if_neg fun hboth => hkey hboth.1, Bool.false_or,
        Nat.zero_add]

theorem map_fst_fates [Journal ω] (failures : List FailedUpdate) (runners : List (Runner ω))
    (o : Outbox) (w : ω) : (fates failures runners o w).map Prod.fst = failures := by
  induction failures generalizing runners o w with
  | nil => rfl
  | cons failure failures ih => rw [fates, List.map_cons, ih]

variable [Journal ω]

/-- Whether the time for which an update has been queued ends in a call: a retry of it does not
fail, or a rebuild discards it. -/
def endsIn (key : String × Uuid) (log : EventLog) (call : RegistryCall) (reg : Registry ω)
    (w : ω) : Bool :=
  match call with
  | .retryFailed => (reg.retried w).any fun f => f.1.key = key ∧ ¬f.2.isReturned
  | .rebuild _ => ((reg.answer log call w).1.outbox.queued? key.1 key.2).isNone
  | .dispatch _ | .catchUp _ => false

/-- What an update comes to in the calls since it was first queued, as counted call by call. -/
def tally (count : RegistryCall → Registry ω → ω → Nat) (key : String × Uuid) (log : EventLog) :
    List RegistryCall → Nat → Registry ω → ω → Nat
  | [], total, _, _ => total
  | call :: calls, total, reg, w =>
    let after := reg.answer log call w
    tally count key log calls
      ((if endsIn key log call reg w then 0 else total) + count call reg w) after.1 after.2

/-- How often a projection has refused an update in a call other than a rebuild. -/
def refusedIn (ledger : Ledger ω) (key : String × Uuid) (log : EventLog) (call : RegistryCall)
    (reg : Registry ω) (w : ω) : Nat :=
  match call with
  | .rebuild _ => 0
  | .dispatch _ | .retryFailed | .catchUp _ =>
    ((ledger (reg.answer log call w).2).drop (ledger w).length).count key

/-- How often a failed retry of an update was merged in a call. -/
def mergedIn (key : String × Uuid) (call : RegistryCall) (reg : Registry ω) (w : ω) : Nat :=
  match call with
  | .retryFailed => mergedOf key (reg.retried w)
  | .dispatch _ | .catchUp _ | .rebuild _ => 0

def refusals (ledger : Ledger ω) (key : String × Uuid) (log : EventLog) (calls : List RegistryCall)
    (reg : Registry ω) (w : ω) : Nat := tally (refusedIn ledger key log) key log calls 0 reg w

def merges (key : String × Uuid) (log : EventLog) (calls : List RegistryCall) (reg : Registry ω)
    (w : ω) : Nat := tally (mergedIn key) key log calls 0 reg w

/-- A ledger is kept of what the projections refuse, and the queue is in order. -/
structure Audited (ledger : Ledger ω) (reg : Registry ω) : Prop where
  note : ∀ record w, ledger (Journal.note record w) = ledger w
  runners : ∀ r ∈ reg.runners, r.Audited ledger
  tidy : reg.outbox.Tidy

namespace Audited
variable {e : Envelope Json}

theorem of_charged {retried : List (FailedUpdate × Fate)} {runners : List (Runner ω)}
    {o o' : Outbox} {w' : ω} (h : reg.Audited ledger) (hrunners : ∀ r ∈ runners, r.Audited ledger)
    (hcharged : Charged ledger retried o w o' w') : Audited ledger ⟨runners, o'⟩ :=
  ⟨h.note, hrunners, hcharged.tidy⟩

theorem dispatch (h : reg.Audited ledger) (he : 0 < e.sequenceNumber) :
    let after := reg.dispatch e w
    after.1.2.Audited ledger ∧ Charged ledger [] reg.outbox w after.1.2.outbox after.2 := by
  obtain ⟨hrunners, hcharged⟩ := Charged.feedAll (w := w) h.runners h.tidy he
  exact ⟨h.of_charged hrunners hcharged, hcharged⟩

theorem dispatchAll (h : reg.Audited ledger) {es : List (Envelope Json)}
    (hes : ∀ e ∈ es, 0 < e.sequenceNumber) : let after := reg.dispatchAll es w
    after.1.Audited ledger ∧ Charged ledger [] reg.outbox w after.1.outbox after.2 := by
  induction es generalizing reg w with
  | nil => exact ⟨h, .nothing h.tidy rfl⟩
  | cons e es ih =>
    rw [List.forall_mem_cons] at hes
    obtain ⟨hfirst, hcharged⟩ := h.dispatch (w := w) hes.1
    obtain ⟨hrest, hcharged'⟩ := ih (w := (reg.dispatch e w).2) hfirst hes.2
    exact ⟨hrest, hcharged.trans hcharged'⟩

theorem drainParked (h : reg.Audited ledger) : let after := reg.drainParked w
    after.1.Audited ledger ∧ Charged ledger [] reg.outbox w after.1.outbox after.2 := by
  obtain ⟨hrunners, hcharged⟩ := Charged.drainRunners (w := w) h.runners h.tidy
  exact ⟨h.of_charged hrunners hcharged, hcharged⟩

theorem retryFailed (h : reg.Audited ledger) : let after := reg.retryFailed w
    after.1.2.Audited ledger ∧ Charged ledger (reg.retried w) { reg.outbox with failed := [] } w
      after.1.2.outbox after.2 := by
  have hempty : Outbox.Tidy { reg.outbox with failed := [] } :=
    ⟨fun _ hmem => absurd hmem List.not_mem_nil, List.nodup_nil⟩
  obtain ⟨hrunners, heach⟩ := Charged.retryEach (w := w) h.runners hempty h.tidy.numbered
  have hretried := h.of_charged hrunners heach
  obtain ⟨hafter, hdrain⟩ := hretried.drainParked
    (w := (retryEach reg.failures reg.runners { reg.outbox with failed := [] } w).2)
  have hcharged := heach.trans hdrain
  rw [List.append_nil] at hcharged
  simp only [Registry.retryFailed, bind_apply]
  split
  · obtain ⟨htidy, entries, hentries, hall⟩ := hcharged
    exact ⟨hafter, htidy, entries, (h.note _ _).trans hentries, hall⟩
  · exact ⟨hafter, hcharged⟩

theorem catchUp (h : reg.Audited ledger) {events : List StoredEvent}
    (hevents : ∀ e ∈ events.map StoredEvent.envelope, 0 < e.sequenceNumber) :
    let after := reg.catchUp (.replica (.ok events)) w
    after.1.2.Audited ledger ∧ Charged ledger [] reg.outbox w after.1.2.outbox after.2 := by
  obtain ⟨hall, hcharged⟩ := h.dispatchAll (w := w) hevents
  obtain ⟨hafter, hdrain⟩ := hall.drainParked
    (w := (reg.dispatchAll (events.map StoredEvent.envelope) w).2)
  obtain ⟨htidy, entries, hentries, hall⟩ := hcharged.trans hdrain
  exact ⟨hafter, htidy, entries, (h.note _ _).trans hentries, hall⟩

end Audited

def breaksOff : Except RebuildError Nat → Bool
  | .error (.projection _ _) => true
  | .error (.store _) | .ok _ => false

/-- What a rebuild of some runners leaves: no runner has changed but for what it has parked, and
if none broke off, nothing is parked or queued for any of them. -/
structure Rebuilds (runners : List (Runner ω)) (o : Outbox)
    (step : Except RebuildError Nat × List (Runner ω) × Outbox) : Prop where
  names : step.2.1.map Runner.name = runners.map Runner.name
  kept : ∀ r' ∈ step.2.1, ∃ r ∈ runners, r' = r.withBacklog r'.backlog
  thins : o.Thins step.2.2
  complete : breaksOff step.1 = false → (∀ r ∈ step.2.1, r.backlog.envelopes = []) ∧
    ∀ f ∈ step.2.2.failed, f.projection ∉ runners.map Runner.name

theorem rebuilds_runners (es : List (Envelope Json)) (total : Nat) (runners : List (Runner ω))
    (o : Outbox) (w : ω) : Rebuilds runners o (rebuildRunners es total runners o w).1 := by
  induction runners generalizing total o w with
  | nil =>
    exact ⟨rfl, fun _ hmem => absurd hmem List.not_mem_nil, .refl o,
      fun _ => ⟨fun _ hmem => absurd hmem List.not_mem_nil, fun _ _ => List.not_mem_nil⟩⟩
  | cons r runners ih =>
    obtain ⟨hrunner, hcomplete⟩ := r.rebuild_runner es w
    rw [rebuildRunners, bind_apply]
    generalize r.rebuild es w = step at hrunner hcomplete
    obtain ⟨⟨result, r'⟩, w'⟩ := step
    have hsame : r' = r.withBacklog r'.backlog := hrunner
    have hname : r'.name = r.name := Runner.name_of_withBacklog hsame
    cases result with
    | error error =>
      have hothers : ∀ other ∈ runners, ∃ r₀ ∈ r :: runners, other = r₀.withBacklog other.backlog :=
        fun other hother => ⟨other, List.mem_cons_of_mem _ hother, rfl⟩
      exact ⟨congrArg (· :: runners.map Runner.name) hname,
        List.forall_mem_cons.mpr ⟨⟨r, List.mem_cons_self, hsame⟩, hothers⟩, .refl o,
        fun hends => Bool.noConfusion hends⟩
    | ok applied =>
      have hrest := ih (total + applied)
        { o with failed := o.failed.filter fun f => f.projection ≠ r'.name }
        (Journal.report .info "projection rebuilt"
          [("projection", .text r'.name), ("applied", .number applied)] w').2
      refine ⟨congrArg₂ List.cons hname hrest.names,
        List.forall_mem_cons.mpr ⟨⟨r, List.mem_cons_self, hsame⟩, fun other hother => ?_⟩,
        (o.thins_discard r'.name).trans hrest.thins, fun hends => ?_⟩
      · obtain ⟨before, hbefore, heq⟩ := hrest.kept other hother
        exact ⟨before, List.mem_cons_of_mem _ hbefore, heq⟩
      · obtain ⟨hparked, hfailed⟩ := hrest.complete hends
        refine ⟨List.forall_mem_cons.mpr ⟨hcomplete applied rfl, hparked⟩, fun f hf hmem => ?_⟩
        rcases List.mem_cons.mp hmem with heq | hmem
        · have hkept := hrest.thins.sublist.mem hf
          exact of_decide_eq_true (List.mem_filter.mp hkept).2 (heq.trans hname.symm)
        · exact hfailed f hf hmem

theorem rebuilds_rebuild (reg : Registry ω) (log : EventLog) (read : Except EventStoreError Nat)
    (w : ω) : let after := reg.rebuild (log.copy read) w
    (∃ error, after = ((.error (.store error), reg), w)) ∨
      Rebuilds reg.runners reg.outbox (after.1.1, after.1.2.runners, after.1.2.outbox) := by
  cases read with
  | error error => exact .inl ⟨error, rfl⟩
  | ok count => exact .inr (rebuilds_runners _ 0 reg.runners reg.outbox w)

theorem Rebuilds.audited {step : Except RebuildError Nat × List (Runner ω) × Outbox}
    (h : Rebuilds reg.runners reg.outbox step) (hreg : reg.Audited ledger) :
    Audited ledger ⟨step.2.1, step.2.2⟩ where
  note := hreg.note
  runners r' hmem := by
    obtain ⟨r, hr, hsame⟩ := h.kept r' hmem
    exact (hreg.runners r hr).of_withBacklog hsame
  tidy := h.thins.tidy hreg.tidy

namespace Audited

theorem rebuild (h : reg.Audited ledger) (log : EventLog) (read : Except EventStoreError Nat) :
    (reg.rebuild (log.copy read) w).1.2.Audited ledger ∧
      reg.outbox.Thins (reg.rebuild (log.copy read) w).1.2.outbox := by
  rcases rebuilds_rebuild reg log read w with ⟨error, hafter⟩ | hrebuilds
  · rw [hafter]
    exact ⟨h, .refl _⟩
  · exact ⟨hrebuilds.audited h, hrebuilds.thins⟩

omit [Journal ω] in
theorem refused_of_charged {o : Outbox} {w' : ω} (h : Charged ledger [] reg.outbox w o w') :
    o.attemptsOf key =
      reg.outbox.attemptsOf key + ((ledger w').drop (ledger w).length).count key := by
  obtain ⟨_, entries, hentries, hcharged⟩ := h
  rw [hentries, List.drop_left]
  exact hcharged key

/-- One call: what the queue has as attempts of an update, and what was merged, is what it was
and what was refused. -/
theorem answer {log : EventLog} (hlog : ∀ e ∈ log.envelopes, 0 < e.sequenceNumber)
    (h : reg.Audited ledger) {call : RegistryCall}
    (hcall : ∀ e, call = .dispatch e → e ∈ log.envelopes) :
    let after := reg.answer log call w
    after.1.Audited ledger ∧ ∀ key, after.1.outbox.attemptsOf key + mergedIn key call reg w =
      (if endsIn key log call reg w then 0 else reg.outbox.attemptsOf key) +
        refusedIn ledger key log call reg w := by
  cases call with
  | dispatch e =>
    obtain ⟨hafter, hcharged⟩ := h.dispatch (w := w) (hlog e (hcall e rfl))
    exact ⟨hafter, fun key => refused_of_charged hcharged⟩
  | retryFailed =>
    obtain ⟨hafter, _, entries, hentries, hcharged⟩ := h.retryFailed (w := w)
    refine ⟨hafter, fun key => ?_⟩
    have hfates : (reg.retried w).map Prod.fst = reg.failures := map_fst_fates _ _ _ _
    have hkeys : ((reg.retried w).map fun f => f.1.key).Nodup := by
      have hmap : ((reg.retried w).map fun f => f.1.key) = reg.failures.map FailedUpdate.key := by
        rw [← hfates, List.map_map]
        rfl
      rw [hmap]
      exact h.tidy.keys
    have hback := broughtBack_of_nodup key hkeys reg.outbox hfates.symm
    have hrefused : refusedIn ledger key log .retryFailed reg w = entries.count key := by
      change ((ledger (reg.retryFailed w).2).drop (ledger w).length).count key = _
      rw [hentries, List.drop_left]
    have hempty : Outbox.attemptsOf { reg.outbox with failed := [] } key = 0 := rfl
    have hall := hcharged key
    rw [hback, hempty, Nat.zero_add, Nat.add_comm (entries.count key)] at hall
    rw [hrefused]
    exact hall
  | catchUp read =>
    cases read with
    | error error => exact ⟨h, fun key => refused_of_charged (.nothing h.tidy rfl)⟩
    | ok count =>
      have hevents : ∀ e ∈ (log.commits.take count).map StoredEvent.envelope, e ∈ log.envelopes :=
        EventLog.envelopes_of_commits fun _ hmem => List.mem_of_mem_take hmem
      obtain ⟨hafter, hcharged⟩ := h.catchUp (w := w) fun e he => hlog e (hevents e he)
      exact ⟨hafter, fun key => refused_of_charged hcharged⟩
  | rebuild read =>
    obtain ⟨hafter, hthins⟩ := h.rebuild (w := w) log read
    refine ⟨hafter, fun key => ?_⟩
    change Outbox.attemptsOf (reg.rebuild (log.copy read) w).1.2.outbox key =
      if ((reg.rebuild (log.copy read) w).1.2.outbox.queued? key.1 key.2).isNone then 0
        else reg.outbox.attemptsOf key
    rcases hthins.queued key with hnone | hsame
    · rw [Outbox.attemptsOf, hnone]
      rfl
    · rw [Outbox.attemptsOf, Outbox.attemptsOf, hsame]
      cases reg.outbox.queued? key.1 key.2 <;> rfl

theorem answerAll {log : EventLog} (hlog : ∀ e ∈ log.envelopes, 0 < e.sequenceNumber)
    (h : reg.Audited ledger) {calls : List RegistryCall}
    (hcalls : ∀ e, .dispatch e ∈ calls → e ∈ log.envelopes) {merged refused : Nat}
    (hkey : reg.outbox.attemptsOf key + merged = refused) :
    let after := reg.answerAll log calls w
    after.1.Audited ledger ∧
      after.1.outbox.attemptsOf key + tally (mergedIn key) key log calls merged reg w =
        tally (refusedIn ledger key log) key log calls refused reg w := by
  induction calls generalizing reg w merged refused with
  | nil => exact ⟨h, hkey⟩
  | cons call calls ih =>
    obtain ⟨hafter, hcount⟩ := h.answer hlog (w := w) fun e he => hcalls e (he ▸ List.mem_cons_self)
    refine ih hafter (fun e he => hcalls e (List.mem_cons_of_mem _ he)) ?_
    have hall := hcount key
    split
    · rename_i hends
      rw [if_pos hends] at hall
      omega
    · rename_i hends
      rw [if_neg hends] at hall
      omega

end Audited

end Registry

end IdentityLedger
