import IdentityLedger.Proofs.Projection.Accounts
import IdentityLedger.Proofs.Projection.DeliveryOrder

/-!
# No event is lost

A registry of projections that are free to fail at every call. Whatever it is asked to do,
short of a rebuild, each projection still has every event that was fed to it: behind its
cursor, parked until its predecessor comes, or queued to be tried again. A queued event may
be stale, but never is one parked and queued, or queued twice.
-/
namespace IdentityLedger

/-- The envelopes of a log that a call feeds to every runner. -/
def RegistryCall.fed (log : EventLog) : RegistryCall → List (Envelope Json)
  | .dispatch e => [e]
  | .retryFailed => []
  | .catchUp (.ok count) | .rebuild (.ok count) => (log.commits.take count).map StoredEvent.envelope
  | .catchUp (.error _) | .rebuild (.error _) => []

namespace Registry
variable {ω : Type} [Journal ω] {cursor : String → ω → AggregateId → Nat} {log : EventLog}
variable {seen : List (Envelope Json)} {names : List String} {reg : Registry ω} {w : ω}

theorem Balanced.answer (hlog : Gapless log.envelopes)
    (hids : (log.envelopes.map Envelope.eventId).Nodup) (hnames : names.Nodup)
    (h : Balanced cursor log.envelopes seen names [] reg.runners reg.outbox w) {call : RegistryCall}
    (hcall : ∀ e, call = .dispatch e → e ∈ log.envelopes) (hrebuild : ∀ read, call ≠ .rebuild read) :
    let after := reg.answer log call w
    Balanced cursor log.envelopes (seen ++ call.fed log) names [] after.1.runners after.1.outbox
      after.2 := by
  cases call with
  | dispatch e => exact h.dispatch hlog hids hnames (hcall e rfl)
  | retryFailed => exact (List.append_nil seen).symm ▸ h.retryFailed hlog hids hnames
  | catchUp read =>
    cases read with
    | error error => exact (List.append_nil seen).symm ▸ h
    | ok count =>
      exact h.catchUp hlog hids hnames
        (EventLog.envelopes_of_commits fun _ hmem => List.mem_of_mem_take hmem)
  | rebuild read => exact absurd rfl (hrebuild read)

theorem Balanced.answerAll (hlog : Gapless log.envelopes)
    (hids : (log.envelopes.map Envelope.eventId).Nodup) (hnames : names.Nodup)
    (h : Balanced cursor log.envelopes seen names [] reg.runners reg.outbox w)
    {calls : List RegistryCall} (hcalls : ∀ e, .dispatch e ∈ calls → e ∈ log.envelopes)
    (hrebuild : ∀ read, .rebuild read ∉ calls) :
    let after := reg.answerAll log calls w
    Balanced cursor log.envelopes (seen ++ calls.flatMap (RegistryCall.fed log)) names []
      after.1.runners after.1.outbox after.2 := by
  induction calls generalizing seen reg w with
  | nil => exact (List.append_nil seen).symm ▸ h
  | cons call calls ih =>
    have hfirst := h.answer hlog hids hnames (fun e he => hcalls e (he ▸ List.mem_cons_self))
      fun read hread => hrebuild read (hread ▸ List.mem_cons_self)
    rw [List.flatMap_cons, ← List.append_assoc]
    exact ih hfirst (fun e he => hcalls e (List.mem_cons_of_mem _ he))
      fun read hread => hrebuild read (List.mem_cons_of_mem _ hread)

/-- The queued failures of a projection that are ahead of its cursor in a stream. -/
def failuresAhead (reg : Registry ω) (projection : String) (id : AggregateId) (cursor : Nat) :
    List FailedUpdate :=
  reg.failures.filter fun f => f.projection = projection ∧ f.envelope.aggregateId = id ∧
    cursor < f.envelope.sequenceNumber

/-- No envelope that was fed to a registry is lost to any of its runners: it has been passed by
the cursor, is parked, or is queued as a failure. None is both parked and queued, or queued
twice, and of the failures in a stream at most one is ahead of the cursor, by one. -/
structure Conserved (seen : List (Envelope Json)) (reg : Registry ω) (w : ω) : Prop where
  placed : ∀ r ∈ reg.runners, ∀ e ∈ seen, e.sequenceNumber ≤ (r.cursor e.aggregateId w).1 ∨
    e ∈ r.backlog.envelopes ∨ ∃ f ∈ reg.failures, f.projection = r.name ∧ f.envelope = e
  apart : ∀ r ∈ reg.runners, ∀ e ∈ r.backlog.envelopes, ∀ f ∈ reg.failures,
    f.projection = r.name → f.envelope.eventId ≠ e.eventId
  once : (reg.failures.map fun f => (f.projection, f.envelope.eventId)).Nodup
  ahead : ∀ r ∈ reg.runners, ∀ id, let ahead := reg.failuresAhead r.name id (r.cursor id w).1
    ahead.length ≤ 1 ∧ ∀ f ∈ ahead, f.envelope.sequenceNumber = (r.cursor id w).1 + 1

theorem owes_nil {o : Outbox} {name : String} {e : Envelope Json} :
    Owes [] o name e ↔ ∃ f ∈ o.failed, f.projection = name ∧ f.envelope = e := by
  rw [Owes, Outbox.holds_iff]
  exact or_iff_right List.not_mem_nil

theorem Balanced.place_of_ahead {log : List (Envelope Json)}
    (h : Balanced cursor log seen names [] reg.runners reg.outbox w) {r : Runner ω}
    (hr : r ∈ reg.runners) {id : AggregateId} {f : FailedUpdate}
    (hf : f ∈ reg.failuresAhead r.name id (r.cursor id w).1) :
    f ∈ reg.failures ∧ f.projection = r.name ∧ f.envelope.aggregateId = id ∧
      f.envelope.sequenceNumber = (r.cursor id w).1 + 1 := by
  have haccounts := h.accounts r hr
  obtain ⟨hqueued, hahead⟩ := List.mem_filter.mp hf
  rw [decide_eq_true_eq] at hahead
  obtain ⟨hname, rfl, hlt⟩ := hahead
  have hready := haccounts.ready f.envelope (owes_nil.mpr ⟨f, hqueued, hname, rfl⟩)
  rw [Runner.cursor_apply haccounts.lawful] at hlt ⊢
  exact ⟨hqueued, hname, rfl, Nat.le_antisymm hready hlt⟩

/-- Two failures ahead of the cursor would be by the envelope at the next place, and so the same
update. -/
theorem Balanced.length_failuresAhead {log : List (Envelope Json)} (hlog : Gapless log)
    (h : Balanced cursor log seen names [] reg.runners reg.outbox w) {r : Runner ω}
    (hr : r ∈ reg.runners) (id : AggregateId) :
    (reg.failuresAhead r.name id (r.cursor id w).1).length ≤ 1 := by
  have hplace (f : FailedUpdate) (hf : f ∈ reg.failuresAhead r.name id (r.cursor id w).1) :=
    h.place_of_ahead hr hf
  have hkeys : ((reg.failuresAhead r.name id (r.cursor id w).1).map FailedUpdate.key).Nodup :=
    h.distinct.keys.sublist (List.filter_sublist.map _)
  generalize reg.failuresAhead r.name id (r.cursor id w).1 = ahead at hplace hkeys
  match ahead with
  | [] => exact Nat.zero_le _
  | [_] => exact Nat.le_refl _
  | f :: f' :: rest =>
    obtain ⟨hf, hname, hid, hnumber⟩ := hplace f List.mem_cons_self
    obtain ⟨hf', hname', hid', hnumber'⟩ := hplace f' (List.mem_cons_of_mem _ List.mem_cons_self)
    have hsame : f.envelope = f'.envelope := hlog.eq_of_place (h.distinct.known f' hf')
      (h.distinct.known f hf) (hid.trans hid'.symm) (hnumber.trans hnumber'.symm)
    have hkey : f.key = f'.key := by rw [FailedUpdate.key, FailedUpdate.key, hname, hname', hsame]
    rw [List.map_cons, List.map_cons, hkey] at hkeys
    exact absurd List.mem_cons_self (List.nodup_cons.mp hkeys).1

theorem Balanced.conserved {log : List (Envelope Json)} (hlog : Gapless log)
    (hids : (log.map Envelope.eventId).Nodup)
    (h : Balanced cursor log seen names [] reg.runners reg.outbox w) : Conserved seen reg w where
  placed r hr e hmem := by
    have haccounts := h.accounts r hr
    rw [Runner.cursor_apply haccounts.lawful]
    exact (haccounts.placed e hmem).imp_right fun hplace => hplace.imp_right owes_nil.mp
  apart r hr e hmem f hf hname heq := by
    have haccounts := h.accounts r hr
    have hsame : f.envelope = e :=
      List.inj_on_of_nodup_map hids (h.distinct.known f hf) (haccounts.parked e hmem) heq
    have hready := haccounts.ready e (owes_nil.mpr ⟨f, hf, hname, hsame⟩)
    exact Nat.not_lt_of_le hready (haccounts.waits e hmem)
  once := h.distinct.keys
  ahead r hr id := ⟨h.length_failuresAhead hlog hr id, fun _ hf => (h.place_of_ahead hr hf).2.2.2⟩

end Registry

/-- A state in which any number of projections build a model, whose cursors are in memory. -/
structure Workbench (σ : Type) where
  model : σ
  cursors : CursorTable
  journal : List JournalRecord

namespace Workbench
variable {σ : Type}

instance : Journal (Workbench σ) := ⟨fun record w => { w with journal := record :: w.journal }⟩

def modelCell : Cell (Workbench σ) σ := ⟨Workbench.model, fun model w => { w with model }⟩

def cursorCell : Cell (Workbench σ) CursorTable :=
  ⟨Workbench.cursors, fun cursors w => { w with cursors }⟩

def cursor (name : String) (w : Workbench σ) (id : AggregateId) : Nat :=
  (w.cursors.get? name id).getD 0

def projection (p : Projection σ) : Projection (Workbench σ) where
  name := p.name
  handles := p.handles
  receive e := modelCell.run (p.receive e)
  reset := modelCell.run p.reset

def runner (p : Projection σ) : Runner (Workbench σ) :=
  .new (projection p) (CursorTable.store cursorCell)

theorem cursor_update_of_ne {name other : String} (hother : other ≠ name) (id : AggregateId)
    (number : Nat) (w : Workbench σ) :
    cursor other (cursorCell.set (w.cursors.update name id number) w) = cursor other w := by
  funext other'
  change ((w.cursors.update name id number).get? other other').getD 0 = _
  rw [CursorTable.get?_update, if_neg fun hboth => hother hboth.1]
  rfl

theorem cursor_clear_of_ne {name other : String} (hother : other ≠ name) (w : Workbench σ) :
    cursor other (cursorCell.set (w.cursors.clear name) w) = cursor other w := by
  funext other'
  change ((w.cursors.clear name).get? other other').getD 0 = _
  rw [CursorTable.get?_clear, if_neg hother]
  rfl

theorem lawful (p : Projection σ) :
    (Observation.ofName cursor p.name).Lawful (projection p) (CursorTable.store cursorCell) where
  toTracks := Observation.tracks_of_cell _ cursorCell (fun _ _ => rfl)
    ⟨fun _ _ _ => rfl, fun hab hbc other hother => (hbc other hother).trans (hab other hother),
      fun _ _ _ _ => rfl⟩
    (fun _ _ => rfl) (fun _ _ => rfl) (fun _ _ => rfl) (fun _ _ => rfl)
    (fun id number w _ hother => cursor_update_of_ne hother id number w)
    (fun w _ hother => cursor_clear_of_ne hother w)
  receive e w := by
    simp only [projection, Cell.run_apply]
    cases (p.receive e (modelCell.get w)).1 with
    | error error => exact ⟨rfl, rfl, fun _ _ => rfl⟩
    | ok => exact ⟨rfl, trivial, fun _ _ => rfl⟩
  reset w := by
    simp only [projection, Cell.run_apply]
    cases (p.reset (modelCell.get w)).1 with
    | error error => exact ⟨rfl, rfl, fun _ _ => rfl⟩
    | ok => exact ⟨trivial, fun _ _ => rfl⟩

theorem balanced_start (projections : List (Projection σ)) (log : List (Envelope Json))
    (bus : Bus ProjectionUpdated) (w : Workbench σ) :
    Registry.Balanced cursor log [] (projections.map Projection.name) []
      (projections.map runner) ⟨[], bus⟩ w :=
  .start_map runner (fun p => ⟨lawful p, rfl⟩) projections log bus w

end Workbench

/-- Whatever projections of different names do with the events of a gapless log, and whenever
they fail, no event that was dispatched, or fed by catching up, is lost to any of them. -/
theorem answerAll_conserves {σ : Type} (projections : List (Projection σ))
    (hnames : (projections.map Projection.name).Nodup) (log : EventLog)
    (hlog : Gapless log.envelopes) (hids : (log.envelopes.map Envelope.eventId).Nodup)
    (bus : Bus ProjectionUpdated) (calls : List RegistryCall)
    (hcalls : ∀ e, .dispatch e ∈ calls → e ∈ log.envelopes)
    (hrebuild : ∀ read, .rebuild read ∉ calls) (w : Workbench σ) :
    let after := Registry.answerAll log ⟨projections.map Workbench.runner, ⟨[], bus⟩⟩ calls w
    after.1.names = projections.map Projection.name ∧
      Registry.Conserved (calls.flatMap (RegistryCall.fed log)) after.1 after.2 := by
  intro after
  have hstart := Workbench.balanced_start projections log.envelopes bus w
  have hafter : Registry.Balanced Workbench.cursor log.envelopes
      ([] ++ calls.flatMap (RegistryCall.fed log)) (projections.map Projection.name) []
      after.1.runners after.1.outbox after.2 :=
    Registry.Balanced.answerAll hlog hids hnames hstart hcalls hrebuild
  exact ⟨hafter.named, hafter.conserved hlog hids⟩

/-- A projection that counts what it has received, and refuses the first envelope. -/
def flakyProjection (name : String) : Projection Nat where
  name
  handles _ := true
  receive _ count := (if count = 0 then .error (.store "unavailable") else .ok (), count + 1)
  reset _ := (.ok (), 0)

/-- The second event comes first, the first one is refused by one of two projections, and after
a retry the beginning of the log is fed once more. -/
theorem answerAll_conserves_mintedLog :
    let projections := [flakyProjection "first", flakyProjection "second"]
    let calls := mintedLog.envelopes.reverse.map .dispatch ++ [.retryFailed, .catchUp (.ok 1)]
    (projections.map Projection.name).Nodup ∧ Gapless mintedLog.envelopes ∧
      (mintedLog.envelopes.map Envelope.eventId).Nodup ∧
      (∀ e, .dispatch e ∈ calls → e ∈ mintedLog.envelopes) ∧ (∀ read, .rebuild read ∉ calls) ∧
      let after := Registry.answerAll mintedLog ⟨projections.map Workbench.runner, ⟨[], .new⟩⟩ calls
        ⟨0, .empty, []⟩
      after.1.names = ["first", "second"] ∧
        Registry.Conserved (calls.flatMap (RegistryCall.fed mintedLog)) after.1 after.2 := by
  intro projections calls
  have hnames : (projections.map Projection.name).Nodup := by decide
  have hlog := mintedLog_written.lawful.consistent.gapless
  have hids : (mintedLog.envelopes.map Envelope.eventId).Nodup := by decide +kernel
  have hcalls : ∀ e, .dispatch e ∈ calls → e ∈ mintedLog.envelopes := by
    intro e he
    simpa [calls] using he
  have hrebuild : ∀ read, .rebuild read ∉ calls := by
    intro read
    simp [calls]
  exact ⟨hnames, hlog, hids, hcalls, hrebuild,
    answerAll_conserves projections hnames mintedLog hlog hids .new calls hcalls hrebuild _⟩

end IdentityLedger
