import IdentityLedger.Proofs.Projection.CatchUp
import IdentityLedger.Proofs.Projection.Queue
import IdentityLedger.Proofs.Projection.Submission

/-!
# Where every envelope is

An envelope that a registry has fed to its runners is, for each of them, in one of three
places: behind the cursor, parked, or queued as a failure. A retry takes it out of the queue
and submits it again; what is handed back is queued; and no runner touches the cursors or
the failures of another. So every operation but a rebuild keeps the accounts.
-/
namespace IdentityLedger

namespace Observation
variable {ω : Type}

/-- The cursors of one projection, among those of all. Other cursors never differ later. -/
def ofName (cursor : String → ω → AggregateId → Nat) (name : String) : Observation ω Unit where
  cursor := cursor name
  model _ := ()
  later a b := ∀ other, other ≠ name → cursor other b = cursor other a
  effect _ _ _ := True
  vacant _ := True

theorem Tracks.frame_cursors [Journal ω] {cursor : String → ω → AggregateId → Nat} {name : String}
    {cursors : CursorStore ω} (h : (ofName cursor name).Tracks name cursors) :
    Frame fun a b => ∀ other, cursor other b = cursor other a where
  refl _ _ := rfl
  trans hab hbc other := (hbc other).trans (hab other)
  note record w other := by
    by_cases hname : other = name
    · rw [hname]
      exact h.cursor_note record w
    · exact h.frame.note record w other hname

end Observation

section
variable {ω : Type} [Journal ω] {cursor : String → ω → AggregateId → Nat}
variable {log seen seen' : List (Envelope Json)} {queued queued' : Envelope Json → Prop}
variable {r : Runner ω} {o o' : Outbox} {e : Envelope Json} {w w' : ω}

variable (cursor) in
/-- A runner accounts for what it has seen: each envelope is behind its cursor, parked, or
queued for it. What is parked waits, and what is queued is at most the next one. -/
structure Runner.Accounts (log seen : List (Envelope Json)) (queued : Envelope Json → Prop)
    (r : Runner ω) (w : ω) : Prop where
  lawful : (Observation.ofName cursor r.name).Lawful r.projection r.cursors
  waits : r.Waits (.ofName cursor r.name) w
  parked : ∀ e ∈ r.backlog.envelopes, e ∈ log
  ready : ∀ e, queued e → e.sequenceNumber ≤ cursor r.name w e.aggregateId + 1
  placed : ∀ e ∈ seen, r.Placed (.ofName cursor r.name) queued w e

namespace Runner.Accounts

theorem frame (h : r.Accounts cursor log seen queued w)
    (hcursor : cursor r.name w' = cursor r.name w) (hqueued : ∀ e, queued' e ↔ queued e) :
    r.Accounts cursor log seen queued' w' where
  lawful := h.lawful
  waits e hmem := by
    change cursor r.name w' e.aggregateId + 1 < e.sequenceNumber
    rw [hcursor]
    exact h.waits e hmem
  parked := h.parked
  ready e hold := by
    rw [hcursor]
    exact h.ready e ((hqueued e).mp hold)
  placed e hmem := by
    change e.sequenceNumber ≤ cursor r.name w' e.aggregateId ∨ e ∈ r.backlog.envelopes ∨ queued' e
    rw [hcursor, hqueued]
    exact h.placed e hmem

theorem conserves (h : r.Accounts cursor log seen queued w) (hlog : Gapless log) (he : e ∈ log) :
    r.Conserves (.ofName cursor r.name) e w (handedBack e (r.apply e w).1.1) (r.apply e w).1.2
      (r.apply e w).2 := conserves_apply h.lawful hlog h.parked he w

theorem name_apply (h : r.Accounts cursor log seen queued w) (hlog : Gapless log) (he : e ∈ log) :
    (r.apply e w).1.2.name = r.name := by
  rw [(h.conserves hlog he).runner]
  rfl

theorem handedBack_known (h : r.Accounts cursor log seen queued w) (hlog : Gapless log) (he : e ∈ log) :
    ∀ e' ∈ handedBack e (r.apply e w).1.1, e' ∈ log := by
  intro e' hmem
  rcases ((h.conserves hlog he).returned e' hmem).1 with rfl | hold
  · exact he
  · exact h.parked e' hold

/-- A runner accounts for one more envelope once what it handed back is queued. The envelope
itself need not be queued any more. -/
theorem apply (h : r.Accounts cursor log seen queued w) (hlog : Gapless log) (he : e ∈ log)
    (hseen : ∀ e' ∈ seen', e' = e ∨ e' ∈ seen)
    (hkept : ∀ e', queued e' → e' = e ∨ queued' e')
    (hhanded : ∀ e' ∈ handedBack e (r.apply e w).1.1, queued' e')
    (hqueued : ∀ e', queued' e' → queued e' ∨ e' ∈ handedBack e (r.apply e w).1.1) :
    (r.apply e w).1.2.Accounts cursor log seen' queued' (r.apply e w).2 := by
  have hconserves := h.conserves hlog he
  have hwaits := Runner.waits_apply h.lawful (e := e) h.waits
  generalize r.apply e w = step at hconserves hwaits hhanded hqueued ⊢
  obtain ⟨⟨result, r'⟩, w'⟩ := step
  dsimp only at hconserves hwaits hhanded hqueued ⊢
  have hname : r'.name = r.name := by
    rw [hconserves.runner]
    rfl
  constructor
  · rw [hname, hconserves.runner]
    exact h.lawful
  · rw [hname]
    exact hwaits
  · intro e' hmem
    rcases hconserves.parked e' hmem with rfl | hold
    · exact he
    · exact h.parked e' hold
  · intro e' hold
    rw [hname]
    rcases hqueued e' hold with hold | hmem
    · exact Nat.le_trans (h.ready e' hold) (Nat.succ_le_succ (hconserves.cursor_le _))
    · exact (hconserves.returned e' hmem).2
  · intro e' hmem
    rw [hname]
    exact hconserves.keeps_placed hkept hhanded ((hseen e' hmem).imp_right (h.placed e'))

theorem congr (h : r.Accounts cursor log seen queued w) (hqueued : ∀ e, queued' e ↔ queued e) :
    r.Accounts cursor log seen queued' w := h.frame rfl hqueued

end Runner.Accounts

namespace Registry
variable {r' : Runner ω} {failure : FailedUpdate} {taken : List FailedUpdate}
variable {name : String} {names : List String} {runners : List (Runner ω)}

variable (cursor) in
/-- A registry has dealt with what a runner returned of an envelope: all that was handed back
is queued. -/
structure Dealt (log : List (Envelope Json)) (name : String) (e : Envelope Json) (o : Outbox)
    (step : (Except ProjectionError ApplyOutcome × Runner ω) × ω) (r' : Runner ω) (o' : Outbox)
    (w' : ω) : Prop where
  runner : r' = step.1.2
  gains : o.Gains log name (Runner.handedBack e step.1.1) o'
  cursor : ∀ other, cursor other w' = cursor other step.2

theorem dealt_feed (hlog : Gapless log) (hids : (log.map Envelope.eventId).Nodup)
    (ho : o.Distinct log) (h : r.Accounts cursor log seen queued w) (he : e ∈ log) :
    let after := feed r e o w
    Dealt cursor log r.name e o (r.apply e w) after.1.2.1 after.1.2.2 after.2 := by
  have hframe := h.lawful.frame_cursors
  have hname := h.name_apply hlog he
  have hknown := h.handedBack_known hlog he
  rw [feed, bind_apply]
  generalize r.apply e w = step at hname hknown ⊢
  obtain ⟨⟨error | (progress | _ | _), r'⟩, w'⟩ := step
  · refine ⟨rfl, hname ▸ ho.recordFailure hids he r'.name error w', ?_⟩
    exact (Outbox.recordFailure_spec hframe ho.known he r'.name error w').2
  · have hstalled : ∀ s ∈ progress.stalled, s.envelope ∈ log :=
      fun s hmem => hknown s.envelope (List.mem_map_of_mem hmem)
    refine ⟨rfl, hname ▸ ho.settle hids r'.name hstalled w', ?_⟩
    exact (Outbox.settle_spec hframe ho.known r'.name hstalled w').2
  · exact ⟨rfl, .refl ho r.name, fun _ => rfl⟩
  · exact ⟨rfl, .refl ho r.name, fun _ => rfl⟩

theorem dealt_retryOne (hlog : Gapless log) (hids : (log.map Envelope.eventId).Nodup)
    (ho : o.Distinct log) (h : r.Accounts cursor log seen queued w) (he : failure.envelope ∈ log)
    (hname : r.name = failure.projection) (runners : List (Runner ω)) :
    ∃ resolved r' o' w', retryOne failure (r :: runners) o w = ((resolved, r' :: runners, o'), w') ∧
      Dealt cursor log r.name failure.envelope o (r.apply failure.envelope w) r' o' w' := by
  have hframe := h.lawful.frame_cursors
  have hknown := h.handedBack_known hlog he
  rw [retryOne, if_pos hname, bind_apply, hname]
  generalize r.apply failure.envelope w = step at hknown ⊢
  obtain ⟨⟨error | (progress | _ | _), r'⟩, w'⟩ := step
  · refine ⟨false, r', _, _, rfl, rfl, ho.requeue hids he error w', ?_⟩
    exact (Outbox.requeue_spec hframe ho.known he error w').2
  · have hstalled : ∀ s ∈ progress.stalled, s.envelope ∈ log :=
      fun s hmem => hknown s.envelope (List.mem_map_of_mem hmem)
    refine ⟨true, r', _, _, rfl, rfl, ho.settle hids failure.projection hstalled w', ?_⟩
    exact (Outbox.settle_spec hframe ho.known failure.projection hstalled w').2
  · exact ⟨true, r', o, w', rfl, rfl, .refl ho _, fun _ => rfl⟩
  · exact ⟨true, r', o, w', rfl, rfl, .refl ho _, fun _ => rfl⟩

variable (cursor) in
/-- Neither the cursors nor the queued updates of projections beside the named ones differ. -/
structure Apart (names : List String) (o : Outbox) (w : ω) (o' : Outbox) (w' : ω) : Prop where
  cursor : ∀ name ∉ names, cursor name w' = cursor name w
  holds_iff : ∀ name ∉ names, ∀ e, o'.Holds name e ↔ o.Holds name e

omit [Journal ω] in
theorem Apart.refl (names : List String) (o : Outbox) (w : ω) : Apart cursor names o w o w :=
  ⟨fun _ _ => rfl, fun _ _ _ => Iff.rfl⟩

omit [Journal ω] in
theorem Apart.cons {o'' : Outbox} {w'' : ω} (h : Apart cursor [name] o w o' w')
    (h' : Apart cursor names o' w' o'' w'') : Apart cursor (name :: names) o w o'' w'' where
  cursor other hother := by
    rw [List.mem_cons, not_or] at hother
    rw [h'.cursor other hother.2, h.cursor other (List.mem_singleton.not.mpr hother.1)]
  holds_iff other hother e := by
    rw [List.mem_cons, not_or] at hother
    rw [h'.holds_iff other hother.2, h.holds_iff other (List.mem_singleton.not.mpr hother.1)]

omit [Journal ω] in
theorem Apart.mono {names' : List String} (h : Apart cursor names o w o' w')
    (hnames : names ⊆ names') : Apart cursor names' o w o' w' :=
  ⟨fun name hname => h.cursor name fun hmem => hname (hnames hmem),
    fun name hname => h.holds_iff name fun hmem => hname (hnames hmem)⟩

theorem Dealt.apart (hlog : Gapless log) (h : r.Accounts cursor log seen queued w) (he : e ∈ log)
    (hdealt : Dealt cursor log r.name e o (r.apply e w) r' o' w') :
    Apart cursor [r.name] o w o' w' where
  cursor other hother :=
    (hdealt.cursor other).trans ((h.conserves hlog he).later other (List.mem_singleton.not.mp hother))
  holds_iff other hother e' := by
    rw [hdealt.gains.holds_iff]
    exact or_iff_left fun hgained => hother (List.mem_singleton.mpr hgained.1)

omit [Journal ω] in
theorem Apart.owned (h : Apart cursor names o w o' w')
    (howned : ∀ f ∈ o.failed, f.projection ∈ names) : ∀ f ∈ o'.failed, f.projection ∈ names := by
  intro f hf
  by_contra hname
  have hold : o.Holds f.projection f.envelope :=
    (h.holds_iff f.projection hname f.envelope).mp (List.mem_map_of_mem hf)
  obtain ⟨f', hf', hprojection, _⟩ := Outbox.holds_iff.mp hold
  exact hname (hprojection ▸ howned f' hf')

/-- An envelope is queued for a projection, or taken out of the queue to be tried again. -/
def Owes (taken : List FailedUpdate) (o : Outbox) (name : String) (e : Envelope Json) : Prop :=
  (name, e) ∈ taken.map FailedUpdate.update ∨ o.Holds name e

theorem owes_cons_of_ne (hname : name ≠ failure.projection) :
    Owes (failure :: taken) o name e ↔ Owes taken o name e := by
  have hne : (name, e) ≠ failure.update := fun heq => hname (congrArg Prod.fst heq)
  rw [Owes, List.map_cons, List.mem_cons, or_iff_right hne]
  rfl

/-- A runner whose submission has been dealt with accounts for the envelope as well, which may
have been taken out of the queue for it. -/
theorem Dealt.accounts (hlog : Gapless log) (h : r.Accounts cursor log seen (Owes taken o r.name) w)
    (he : e ∈ log) (hdealt : Dealt cursor log r.name e o (r.apply e w) r' o' w')
    {taken' : List FailedUpdate} (hseen : ∀ e' ∈ seen', e' = e ∨ e' ∈ seen)
    (hleft : ∀ e', (r.name, e') ∈ taken.map FailedUpdate.update →
      e' = e ∨ (r.name, e') ∈ taken'.map FailedUpdate.update)
    (htaken : taken'.map FailedUpdate.update ⊆ taken.map FailedUpdate.update) :
    r'.name = r.name ∧ r'.Accounts cursor log seen' (Owes taken' o' r'.name) w' := by
  have hname : r'.name = r.name := hdealt.runner ▸ h.name_apply hlog he
  refine ⟨hname, ?_⟩
  have hafter : (r.apply e w).1.2.Accounts cursor log seen' (Owes taken' o' r.name)
      (r.apply e w).2 := by
    refine h.apply hlog he hseen ?_ ?_ ?_
    · rintro e' (hold | hold)
      · exact (hleft e' hold).imp_right .inl
      · exact .inr (.inr ((hdealt.gains.holds_iff r.name e').mpr (.inl hold)))
    · exact fun e' hmem => .inr ((hdealt.gains.holds_iff r.name e').mpr (.inr ⟨rfl, hmem⟩))
    · rintro e' (hold | hold)
      · exact .inl (.inl (htaken hold))
      · exact ((hdealt.gains.holds_iff r.name e').mp hold).imp .inr And.right
  rw [← hdealt.runner] at hafter
  refine hafter.frame (hdealt.cursor _) fun e' => ?_
  rw [hname]

variable (cursor) in
/-- Each of some runners accounts for what has been fed to it. The projections are known by
their names, and failures may have been taken out of the queue to be tried again. -/
structure Accounts (log seen : List (Envelope Json)) (names : List String)
    (taken : List FailedUpdate) (runners : List (Runner ω)) (o : Outbox) (w : ω) : Prop where
  named : runners.map Runner.name = names
  distinct : o.Distinct log
  accounts : ∀ r ∈ runners, r.Accounts cursor log seen (Owes taken o r.name) w

theorem accounts_of_apart (h : r.Accounts cursor log seen (Owes taken o r.name) w)
    (hapart : Apart cursor names o w o' w') (hname : r.name ∉ names) :
    r.Accounts cursor log seen (Owes taken o' r.name) w' :=
  h.frame (hapart.cursor r.name hname) fun e => or_congr_right (hapart.holds_iff r.name hname e)

omit [Journal ω] in
theorem name_ne_of_mem {other : Runner ω} (hname : r.name ∉ runners.map Runner.name)
    (hmem : other ∈ runners) : other.name ≠ r.name :=
  fun heq => hname (heq ▸ List.mem_map_of_mem hmem)

namespace Accounts

theorem cons (hr : r.Accounts cursor log seen (Owes taken o r.name) w)
    (h : Accounts cursor log seen names taken runners o' w') (hapart : Apart cursor names o w o' w')
    (hname : r.name ∉ names) :
    Accounts cursor log seen (r.name :: names) taken (r :: runners) o' w' where
  named := by rw [List.map_cons, h.named]
  distinct := h.distinct
  accounts := by
    rw [List.forall_mem_cons]
    exact ⟨accounts_of_apart hr hapart hname, h.accounts⟩

theorem feedAll (hlog : Gapless log) (hids : (log.map Envelope.eventId).Nodup) (hnames : names.Nodup)
    (h : Accounts cursor log seen names [] runners o w) (he : e ∈ log) :
    let after := Registry.feedAll e runners o w
    Accounts cursor log (seen ++ [e]) names [] after.1.2.1 after.1.2.2 after.2 ∧
      Apart cursor names o w after.1.2.2 after.2 := by
  induction runners generalizing names o w with
  | nil => exact ⟨⟨h.named, h.distinct, fun _ hmem => absurd hmem List.not_mem_nil⟩, .refl _ _ _⟩
  | cons r runners ih =>
    obtain ⟨rfl, ho, haccounts⟩ := h
    rw [List.map_cons, List.nodup_cons] at hnames
    rw [List.forall_mem_cons] at haccounts
    obtain ⟨hr, hrunners⟩ := haccounts
    have hseen : ∀ e' ∈ seen ++ [e], e' = e ∨ e' ∈ seen := by
      intro e' hmem
      exact (List.mem_append.mp hmem).symm.imp_left List.mem_singleton.mp
    have hdealt := dealt_feed hlog hids ho hr he
    have hapart := hdealt.apart hlog hr he
    obtain ⟨hname, hfirst⟩ := hdealt.accounts hlog hr he hseen (fun _ => .inr) (List.Subset.refl _)
    rw [Registry.feedAll, bind_apply]
    generalize feed r e o w = step at hdealt hapart hname hfirst
    obtain ⟨⟨updates, r', o'⟩, w'⟩ := step
    have hothers : ∀ other ∈ runners, other.name ∉ [r.name] :=
      fun _ hmem => List.mem_singleton.not.mpr (name_ne_of_mem hnames.1 hmem)
    obtain ⟨hrest, hapart'⟩ := ih hnames.2 ⟨rfl, hdealt.gains.distinct,
      fun other hmem => accounts_of_apart (hrunners other hmem) hapart (hothers other hmem)⟩
    refine ⟨?_, hapart.cons hapart'⟩
    rw [List.map_cons, ← hname]
    exact cons hfirst hrest hapart' (hname ▸ hnames.1)

theorem retryOne (hlog : Gapless log) (hids : (log.map Envelope.eventId).Nodup)
    (hnames : names.Nodup) (h : Accounts cursor log seen names (failure :: taken) runners o w)
    (he : failure.envelope ∈ log) :
    let after := Registry.retryOne failure runners o w
    Accounts cursor log seen names taken after.1.2.1 after.1.2.2 after.2 ∧
      Apart cursor names o w after.1.2.2 after.2 := by
  induction runners generalizing names o w with
  | nil => exact ⟨⟨h.named, h.distinct, fun _ hmem => absurd hmem List.not_mem_nil⟩, .refl _ _ _⟩
  | cons r runners ih =>
    obtain ⟨rfl, ho, haccounts⟩ := h
    rw [List.map_cons, List.nodup_cons] at hnames
    rw [List.forall_mem_cons] at haccounts
    obtain ⟨hr, hrunners⟩ := haccounts
    by_cases hname : r.name = failure.projection
    · obtain ⟨resolved, r', o', w', hone, hdealt⟩ :=
        dealt_retryOne hlog hids ho hr he hname runners
      have hapart := hdealt.apart hlog hr he
      have hleft : ∀ e', (r.name, e') ∈ (failure :: taken).map FailedUpdate.update →
          e' = failure.envelope ∨ (r.name, e') ∈ taken.map FailedUpdate.update := by
        intro e' hmem
        exact (List.mem_cons.mp hmem).imp_left (congrArg Prod.snd)
      obtain ⟨hname', hfirst⟩ := hdealt.accounts hlog hr he (fun _ => .inr) hleft
        (List.subset_cons_self _ _)
      rw [hone]
      refine ⟨⟨?_, hdealt.gains.distinct, ?_⟩, hapart.mono ?_⟩
      · rw [List.map_cons, hname', List.map_cons]
      · rw [List.forall_mem_cons]
        refine ⟨hfirst, fun other hmem => ?_⟩
        have hne := name_ne_of_mem hnames.1 hmem
        have hother := (hrunners other hmem).congr fun e' => (owes_cons_of_ne (hname ▸ hne)).symm
        exact accounts_of_apart hother hapart (List.mem_singleton.not.mpr hne)
      · exact fun _ hmem => List.mem_singleton.mp hmem ▸ List.mem_cons_self
    · obtain ⟨hrest, hapart⟩ := ih hnames.2 ⟨rfl, ho, hrunners⟩
      have hr' := hr.congr fun e' => (owes_cons_of_ne hname).symm
      rw [Registry.retryOne, if_neg hname, bind_apply]
      exact ⟨cons hr' hrest hapart hnames.1, hapart.mono (List.subset_cons_self _ _)⟩

theorem drainRunners (h : Accounts cursor log seen names taken runners o w) :
    Registry.drainRunners runners o w = ((runners, o), w) := by
  replace h := h.accounts
  induction runners with
  | nil => rfl
  | cons r runners ih =>
    rw [List.forall_mem_cons] at h
    rw [Registry.drainRunners, bind_apply, Runner.retryParked_of_waits h.1.lawful h.1.waits]
    simp only [bind_apply, Outbox.settle_none, ih h.2]
    rfl

theorem drainParked (h : Accounts cursor log seen names taken runners o w) :
    (⟨runners, o⟩ : Registry ω).drainParked w = (⟨runners, o⟩, w) := by
  rw [Registry.drainParked, bind_apply, h.drainRunners]
  rfl

end Accounts

variable (cursor) in
/-- Every runner of a registry accounts for what was fed to it, and no failure is queued for a
projection without a runner. -/
structure Balanced (log seen : List (Envelope Json)) (names : List String)
    (taken : List FailedUpdate) (runners : List (Runner ω)) (o : Outbox) (w : ω) : Prop
    extends Accounts cursor log seen names taken runners o w where
  owned : ∀ f ∈ o.failed, f.projection ∈ names

namespace Balanced

theorem start (h : ∀ r ∈ runners, (Observation.ofName cursor r.name).Lawful r.projection r.cursors ∧
      r.backlog.envelopes = []) (log : List (Envelope Json)) (bus : Bus ProjectionUpdated) (w : ω) :
    Balanced cursor log [] (runners.map Runner.name) [] runners ⟨[], bus⟩ w where
  named := rfl
  distinct := ⟨fun _ hmem => absurd hmem List.not_mem_nil, List.nodup_nil⟩
  accounts r hmem := by
    obtain ⟨hlawful, hempty⟩ := h r hmem
    have hnone : ∀ e, e ∉ r.backlog.envelopes := List.eq_nil_iff_forall_not_mem.mp hempty
    exact ⟨hlawful, fun e he => absurd he (hnone e), fun e he => absurd he (hnone e),
      fun _ hold => (hold.elim List.not_mem_nil List.not_mem_nil).elim,
      fun _ he => absurd he List.not_mem_nil⟩
  owned _ hmem := absurd hmem List.not_mem_nil

theorem start_map {α : Type} (runner : α → Runner ω)
    (h : ∀ a, (Observation.ofName cursor (runner a).name).Lawful (runner a).projection
      (runner a).cursors ∧ (runner a).backlog.envelopes = []) (as : List α)
    (log : List (Envelope Json)) (bus : Bus ProjectionUpdated) (w : ω) :
    Balanced cursor log [] (as.map fun a => (runner a).name) [] (as.map runner) ⟨[], bus⟩ w := by
  have hstart := start (List.forall_mem_map.mpr fun a (_ : a ∈ as) => h a) log bus w
  rw [List.map_map] at hstart
  exact hstart

theorem frame (h : Balanced cursor log seen names taken runners o w)
    (hcursor : ∀ r ∈ runners, cursor r.name w' = cursor r.name w) :
    Balanced cursor log seen names taken runners o w' where
  named := h.named
  distinct := h.distinct
  accounts r hmem := (h.accounts r hmem).frame (hcursor r hmem) fun _ => Iff.rfl
  owned := h.owned

theorem note (h : Balanced cursor log seen names taken runners o w) (record : JournalRecord) :
    Balanced cursor log seen names taken runners o (Journal.note record w) :=
  h.frame fun r hmem => (h.accounts r hmem).lawful.cursor_note record w

theorem retryOne (hlog : Gapless log) (hids : (log.map Envelope.eventId).Nodup)
    (hnames : names.Nodup) (h : Balanced cursor log seen names (failure :: taken) runners o w)
    (he : failure.envelope ∈ log) :
    let after := Registry.retryOne failure runners o w
    Balanced cursor log seen names taken after.1.2.1 after.1.2.2 after.2 := by
  obtain ⟨haccounts, hapart⟩ := h.toAccounts.retryOne hlog hids hnames he
  exact ⟨haccounts, hapart.owned h.owned⟩

/-- A failure that is tried again is applied, passed, parked or queued again. -/
theorem retryEach (hlog : Gapless log) (hids : (log.map Envelope.eventId).Nodup)
    (hnames : names.Nodup) (h : Balanced cursor log seen names taken runners o w)
    (htaken : ∀ f ∈ taken, f.envelope ∈ log) :
    let after := Registry.retryEach taken runners o w
    Balanced cursor log seen names [] after.1.2.1 after.1.2.2 after.2 := by
  induction taken generalizing runners o w with
  | nil => exact h
  | cons failure taken ih =>
    rw [List.forall_mem_cons] at htaken
    exact ih (h.retryOne hlog hids hnames htaken.1) htaken.2

variable {reg : Registry ω}

theorem dispatch (hlog : Gapless log) (hids : (log.map Envelope.eventId).Nodup)
    (hnames : names.Nodup) (h : Balanced cursor log seen names [] reg.runners reg.outbox w)
    (he : e ∈ log) :
    let after := reg.dispatch e w
    Balanced cursor log (seen ++ [e]) names [] after.1.2.runners after.1.2.outbox after.2 := by
  obtain ⟨haccounts, hapart⟩ := h.feedAll hlog hids hnames he
  exact ⟨haccounts, hapart.owned h.owned⟩

theorem dispatchAll (hlog : Gapless log) (hids : (log.map Envelope.eventId).Nodup)
    (hnames : names.Nodup) (h : Balanced cursor log seen names [] reg.runners reg.outbox w)
    {es : List (Envelope Json)} (hes : ∀ e ∈ es, e ∈ log) :
    let after := reg.dispatchAll es w
    Balanced cursor log (seen ++ es) names [] after.1.runners after.1.outbox after.2 := by
  induction es generalizing seen reg w with
  | nil => exact (List.append_nil seen).symm ▸ h
  | cons e es ih =>
    rw [List.forall_mem_cons] at hes
    have hfirst := h.dispatch hlog hids hnames hes.1
    rw [List.append_cons]
    exact ih hfirst hes.2

theorem take (h : Balanced cursor log seen names [] reg.runners reg.outbox w) :
    Balanced cursor log seen names reg.failures reg.runners { reg.outbox with failed := [] } w := by
  refine ⟨⟨h.named, ⟨fun _ hmem => absurd hmem List.not_mem_nil, List.nodup_nil⟩, ?_⟩,
    fun _ hmem => absurd hmem List.not_mem_nil⟩
  intro r hmem
  refine (h.accounts r hmem).congr fun e => ?_
  rw [Owes, Owes, or_comm]
  rfl

theorem retryFailed (hlog : Gapless log) (hids : (log.map Envelope.eventId).Nodup)
    (hnames : names.Nodup) (h : Balanced cursor log seen names [] reg.runners reg.outbox w) :
    let after := reg.retryFailed w
    Balanced cursor log seen names [] after.1.2.runners after.1.2.outbox after.2 := by
  have heach := h.take.retryEach hlog hids hnames h.distinct.known
  simp only [Registry.retryFailed, bind_apply, heach.drainParked]
  split
  · exact heach.note _
  · exact heach

theorem catchUp (hlog : Gapless log) (hids : (log.map Envelope.eventId).Nodup)
    (hnames : names.Nodup) (h : Balanced cursor log seen names [] reg.runners reg.outbox w)
    {events : List StoredEvent} (hevents : ∀ e ∈ events.map StoredEvent.envelope, e ∈ log) :
    let after := reg.catchUp (.replica (.ok events)) w
    Balanced cursor log (seen ++ events.map StoredEvent.envelope) names [] after.1.2.runners
      after.1.2.outbox after.2 := by
  have hall := h.dispatchAll hlog hids hnames hevents
  have hdrained := hall.drainParked
  rw [Registry.catchUp, bind_apply]
  simp only [EventStore.replica, pure_apply, bind_apply]
  generalize reg.dispatchAll (events.map StoredEvent.envelope) w = step at hall hdrained ⊢
  change step.1.drainParked step.2 = (step.1, step.2) at hdrained
  rw [hdrained]
  exact hall.note _

end Balanced

end Registry

end

end IdentityLedger
