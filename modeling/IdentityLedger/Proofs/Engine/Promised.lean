import IdentityLedger.Proofs.Engine.Promise
import IdentityLedger.Proofs.Projection.Hearing

/-!
# What is left to be done for a log

Commands that are handled at once share a log, a registry and its rows. Each event that the
registry has not heard is to be dispatched by the command that has committed it. An activation
is heeded, by the command that has made it, until its siblings have been looked for; until then
two profiles of one user may both be active. The rows show an active profile unless an
activation of it is still parked or on its way, and then it is that activation that is heeded.
So of two active profiles of one user there is always one that is heeded or pursued, if the
rows are looked at only once the activation that has been heeded is not parked.
-/
namespace IdentityLedger

namespace EventLog
variable {log : EventLog} {id : AggregateId} {userId : UserId}

theorem Lawful.exists_holds (h : log.Lawful) {place : Nat} (hlt : place < (log.history id).length) :
    ∃ stored ∈ log.commits, stored.aggregateId = id ∧ stored.sequenceNumber = place + 1 ∧
      stored.Holds id (log.history id)[place] := by
  have hlt' : place < (log.stream id).length := h.length_history id ▸ hlt
  obtain ⟨stored, hmem, rfl, hnumber⟩ := h.consistent.exists_stored hlt'
  obtain ⟨_, hplace⟩ := h.consistent.getElem?_stream hmem
  rw [hnumber, Nat.add_sub_cancel] at hplace
  have hholds := (h.holds stored.aggregateId).get hlt hlt'
  simp only [List.get_eq_getElem, (List.getElem?_eq_some_iff.mp hplace).2] at hholds
  exact ⟨stored, hmem, rfl, hnumber, hholds⟩

/-- A profile that becomes active has been activated. -/
theorem Lawful.activeFor_of_extend (h : log.Lawful) {command : ProfileCommand}
    {committed : List StoredEvent} (hcarries : CarriesOut log id command committed)
    {other : AggregateId} (hactive : (log.extend id committed).ActiveFor userId other) :
    log.ActiveFor userId other ∨
      ∃ stored ∈ committed, stored.aggregateId = other ∧ stored.activates = true := by
  obtain ⟨events, _, _, hholds⟩ := h.decided hcarries
  by_cases hother : other = id
  · cases hactivations : SingleActiveProfile.activations committed with
    | nil => exact .inl (h.subsides hcarries hactivations userId other hactive)
    | cons activation activations =>
      have hmem : activation ∈ SingleActiveProfile.activations committed :=
        hactivations ▸ List.mem_cons_self
      obtain ⟨stored, hstored, hactivation⟩ := List.mem_filterMap.mp hmem
      obtain ⟨_, _, hholds⟩ := exists_of_mem_right hholds hstored
      exact .inr ⟨stored, hstored, hholds.aggregateId_eq.trans hother.symm,
        Option.isSome_of_eq_some hactivation⟩
  · exact .inl ((activeFor_extend_of_ne hholds hother).mp hactive)

/-- Where the rows have come past each activation of a profile that is active, they show it. -/
theorem Shows.exists_row {cursor : AggregateId → Nat} {rows : RowTable} (h : log.Shows cursor rows)
    (hlog : log.Lawful) (hactive : log.ActiveFor userId id)
    (hreached : ∀ stored ∈ log.commits, stored.aggregateId = id → stored.activates = true →
      stored.sequenceNumber ≤ cursor id) :
    ∃ row ∈ rows.values, row.profileId = id ∧ row.userId = userId ∧ row.active = true := by
  have hfits := hlog.fits_take id (cursor id)
  have hrest : ∀ e ∈ (log.history id).drop (cursor id), e.change.isActivation = false := by
    intro e he
    obtain ⟨index, hlt, rfl⟩ := List.mem_drop_iff_getElem.mp he
    obtain ⟨stored, hmem, hid, hnumber, hholds⟩ := hlog.exists_holds (Nat.add_comm _ _ ▸ hlt)
    rw [← hholds.activates_eq, ← Bool.not_eq_true]
    intro hactivates
    have hle := hreached stored hmem hid hactivates
    omega
  have hbefore : (Profile.load id ((log.history id).take (cursor id))).ActiveFor userId := by
    have hall := hlog.fits id
    rw [← List.take_append_drop (cursor id) (log.history id), Profile.fits_append] at hall
    rw [ActiveFor, ← List.take_append_drop (cursor id) (log.history id), Profile.load,
      Profile.replay_append] at hactive
    exact hactive.of_replay (Profile.activeOnlyCreated_load hfits) hall.2 hrest
  obtain ⟨row, hrow, hid, hsays⟩ := hbefore.exists_row hfits
  refine ⟨row, ?_, hid, hsays⟩
  rw [(h.values hlog).2, hid, h.row]
  exact hrow

end EventLog

namespace Promise
variable {log after : EventLog} {heard heard' : List (Envelope Json)} {p p' : Promise}
variable {committed : List StoredEvent} {id : AggregateId} {userId : UserId}

/-- What is to be dispatched has been committed, and nothing is heeded that is neither still to
be dispatched nor has been heard. -/
structure Sound (log : EventLog) (heard : List (Envelope Json)) (p : Promise) : Prop where
  todo : ∀ stored ∈ p.todo, stored ∈ log.commits
  heeds : ∀ stored ∈ p.heeds, stored ∈ p.todo ∨ stored.envelope ∈ heard

theorem Sound.later (h : p.Sound log heard) (hcommits : log.commits ⊆ after.commits)
    (hheard : heard ⊆ heard') : p.Sound after heard' where
  todo stored hmem := hcommits (h.todo stored hmem)
  heeds stored hmem := (h.heeds stored hmem).imp_right fun hmem => hheard hmem

/-- The profile is to be compared with its siblings, or to be asked to step down. -/
def Covers (p : Promise) (id : AggregateId) : Prop :=
  (∃ stored ∈ p.heeds, stored.aggregateId = id) ∨ id ∈ p.pursues

theorem Lists.covers {rows : List ProfileRow} (h : p.Lists log id rows p') {other : AggregateId}
    (hcovers : p.Covers other) : other = id ∨ p'.Covers other := by
  obtain ⟨stored, hid, hheeds⟩ := h.heeds
  rcases hcovers with ⟨activation, hmem, rfl⟩ | hmem
  · rw [hheeds] at hmem
    rcases List.mem_cons.mp hmem with rfl | hmem
    · exact .inl hid
    · exact .inr (.inl ⟨activation, hmem, rfl⟩)
  · exact .inr (.inr (h.pursues hmem))

theorem Lands.mem_heeds (h : p.Lands log committed p') {stored : StoredEvent} (hmem : stored ∈ committed)
    (hactivates : stored.activates = true) : stored ∈ p'.heeds := by
  rw [h.heeds]
  exact List.mem_append_right _ (List.mem_filter.mpr ⟨hmem, hactivates⟩)

theorem Covers.later (h : p.Covers id) (hheeds : p.heeds ⊆ p'.heeds)
    (hpursues : ∀ id ∈ p.pursues, id ∈ p'.pursues ∨ log.Idle id) (hactive : log.ActiveFor userId id) :
    p'.Covers id := by
  rcases h with ⟨stored, hmem, hid⟩ | hmem
  · exact .inl ⟨stored, hheeds hmem, hid⟩
  · exact .inr ((hpursues id hmem).resolve_right fun hidle => hidle userId hactive)

end Promise

/-- The rows have come past each activation, or it is heeded. -/
def Heeded (log : EventLog) (cursor : AggregateId → Nat) (promises : List Promise) : Prop :=
  ∀ stored ∈ log.commits, stored.activates = true →
    stored.sequenceNumber ≤ cursor stored.aggregateId ∨ ∃ p ∈ promises, stored ∈ p.heeds

theorem Heeded.sibling {log : EventLog} {cursor : AggregateId → Nat} {rows : RowTable}
    {promises : List Promise} (h : Heeded log cursor promises) (hlog : log.Lawful)
    (hshows : log.Shows cursor rows) {id other : AggregateId} {p p' : Promise}
    (hlists : p.Lists log id rows.values p') (hp' : p' ∈ promises) (hne : other ≠ id) {userId : UserId}
    (hactive : log.ActiveFor userId id) (hactive' : log.ActiveFor userId other) :
    ∃ q ∈ promises, q.Covers other := by
  by_contra hnone
  have hreached : ∀ stored ∈ log.commits, stored.aggregateId = other → stored.activates = true →
      stored.sequenceNumber ≤ cursor other := by
    rintro stored hmem rfl hactivates
    refine (h stored hmem hactivates).resolve_right ?_
    rintro ⟨q, hq, hheeds⟩
    exact hnone ⟨q, hq, .inl ⟨stored, hheeds, rfl⟩⟩
  obtain ⟨row, hrow, rfl, huser, hrowActive⟩ := hshows.exists_row hlog hactive' hreached
  exact hnone ⟨p', hp', .inr (hlists.siblings userId hactive row hrow huser hrowActive hne)⟩

/-- What of a log is still on its way to the rows, and what is still to be done for the profiles
that are active, is what promises say that commands have yet to do. -/
structure Promised (log : EventLog) (promises : List Promise) (heard : List (Envelope Json))
    (reg : Registry Memory) (m : Memory) : Prop where
  events : m.events = log
  lawful : log.Lawful
  hears : Memory.rowModel.Hears log heard reg m
  sound : ∀ p ∈ promises, p.Sound log heard
  told : ∀ stored ∈ log.commits, stored.envelope ∈ heard ∨ ∃ p ∈ promises, stored ∈ p.todo
  heeded : Heeded log m.cursor promises
  covered : ∀ userId a b, a ≠ b → log.ActiveFor userId a → log.ActiveFor userId b →
    ∃ p ∈ promises, p.Covers a ∨ p.Covers b

section Swap
variable {α : Type} {before after : List α} {a b : α} {P P' : α → Prop}

theorem exists_mem_swap_or {Q : Prop} (hab : P a → Q ∨ P b) (h : ∃ x ∈ before ++ a :: after, P x) :
    Q ∨ ∃ x ∈ before ++ b :: after, P x := by
  obtain ⟨x, hmem, hx⟩ := h
  rcases List.mem_append.mp hmem with hmem | hmem
  · exact .inr ⟨x, List.mem_append_left _ hmem, hx⟩
  rcases List.mem_cons.mp hmem with rfl | hmem
  · exact (hab hx).imp_right fun hb => ⟨b, List.mem_append_cons_self, hb⟩
  · exact .inr ⟨x, List.mem_append_right _ (List.mem_cons_of_mem _ hmem), hx⟩

theorem exists_mem_swap (hab : P a → P b) (h : ∃ x ∈ before ++ a :: after, P x) :
    ∃ x ∈ before ++ b :: after, P x :=
  (exists_mem_swap_or (fun ha => .inr (hab ha)) h).resolve_left not_false

theorem forall_mem_swap (h : ∀ x ∈ before ++ a :: after, P x) (hrest : ∀ x, P x → P' x)
    (hab : P a → P' b) : ∀ x ∈ before ++ b :: after, P' x := by
  rw [List.forall_mem_append, List.forall_mem_cons] at h ⊢
  exact ⟨fun x hmem => hrest x (h.1 x hmem), hab h.2.1, fun x hmem => hrest x (h.2.2 x hmem)⟩

end Swap

namespace Promised
variable {log : EventLog} {before after : List Promise} {p p' : Promise}
variable {heard : List (Envelope Json)} {reg : Registry Memory} {m m' : Memory}

theorem start (ids : Nat → Uuid) {promises : List Promise} (hpromises : ∀ p ∈ promises, p = ⟨[], [], []⟩) :
    Promised .empty promises [] Engine.profileRegistry { Memory.empty with ids } where
  events := rfl
  lawful := .empty
  hears := .start rfl rfl trivial .new
  sound p hmem := by
    rw [hpromises p hmem]
    exact ⟨fun _ hmem => absurd hmem List.not_mem_nil, fun _ hmem => absurd hmem List.not_mem_nil⟩
  told _ hmem := absurd hmem List.not_mem_nil
  heeded _ hmem := absurd hmem List.not_mem_nil
  covered userId a b hne ha hb := absurd (EventLog.SingleActive.empty userId a b ha hb) hne

/-- Loading commits and dispatches nothing. -/
theorem loads (h : Promised log (before ++ p :: after) heard reg m) (hloads : p.Loads log p')
    (hquiet : m.Quiet m') : Promised log (before ++ p' :: after) heard reg m' where
  events := hquiet.events.trans h.events
  lawful := h.lawful
  hears := h.hears.congr hquiet.still.cursor hquiet.rows trivial
  sound := by
    refine forall_mem_swap h.sound (fun _ hsound => hsound) fun hsound => ?_
    constructor
    · rw [hloads.todo]
      exact hsound.todo
    · rw [hloads.todo, hloads.heeds]
      exact hsound.heeds
  told stored hmem := by
    refine (h.told stored hmem).imp_right (exists_mem_swap ?_)
    rw [hloads.todo]
    exact id
  heeded stored hmem hactivates := by
    have hcursor : m'.cursor = m.cursor := hquiet.still.cursor
    rw [hcursor]
    refine (h.heeded stored hmem hactivates).imp_right (exists_mem_swap ?_)
    rw [hloads.heeds]
    exact id
  covered userId a b hne ha hb := by
    have hlater : ∀ id, log.ActiveFor userId id → p.Covers id → p'.Covers id := fun id hactive hcovers =>
      hcovers.later (hloads.heeds ▸ List.Subset.refl _) hloads.pursues hactive
    exact exists_mem_swap (Or.imp (hlater a ha) (hlater b hb)) (h.covered userId a b hne ha hb)

/-- What lands is yet to be dispatched, and to be heeded if it is an activation. -/
theorem lands (h : Promised log (before ++ p :: after) heard reg m) {id : AggregateId}
    {command : ProfileCommand} {committed : List StoredEvent}
    (hcarries : CarriesOut log id command committed)
    (hlands : p.Lands (log.extend id committed) committed p') :
    Promised (log.extend id committed) (before ++ p' :: after) heard reg
      { m with events := log.extend id committed } where
  events := rfl
  lawful := h.lawful.extend hcarries
  hears := (h.hears.extend h.lawful hcarries).congr rfl rfl trivial
  sound := by
    have hcommits : log.commits ⊆ (log.extend id committed).commits := List.subset_append_left _ _
    refine forall_mem_swap h.sound (fun _ hsound => hsound.later hcommits (List.Subset.refl _))
      fun hsound => ?_
    constructor
    · rw [hlands.todo, List.forall_mem_append]
      exact ⟨fun stored hmem => hcommits (hsound.todo stored hmem),
        fun _ hmem => List.mem_append_right _ hmem⟩
    · rw [hlands.todo, hlands.heeds, List.forall_mem_append]
      exact ⟨fun stored hmem => (hsound.heeds stored hmem).imp_left (List.mem_append_left _),
        fun stored hmem => .inl (List.mem_append_right _ (List.mem_filter.mp hmem).1)⟩
  told stored hmem := by
    rcases List.mem_append.mp hmem with hold | hnew
    · refine (h.told stored hold).imp_right (exists_mem_swap fun htodo => ?_)
      rw [hlands.todo]
      exact List.mem_append_left _ htodo
    · refine .inr ⟨p', List.mem_append_cons_self, ?_⟩
      rw [hlands.todo]
      exact List.mem_append_right _ hnew
  heeded stored hmem hactivates := by
    rcases List.mem_append.mp hmem with hold | hnew
    · refine (h.heeded stored hold hactivates).imp_right (exists_mem_swap fun hheeds => ?_)
      rw [hlands.heeds]
      exact List.mem_append_left _ hheeds
    · exact .inr ⟨p', List.mem_append_cons_self, hlands.mem_heeds hnew hactivates⟩
  covered userId a b hne ha hb := by
    have hheeds : p.heeds ⊆ p'.heeds := hlands.heeds ▸ List.subset_append_left _ _
    have hlater : ∀ id', (log.extend id committed).ActiveFor userId id' → p.Covers id' → p'.Covers id' :=
      fun id' hactive hcovers => hcovers.later hheeds hlands.pursues hactive
    have hnew : ∀ id', (log.extend id committed).ActiveFor userId id' →
        log.ActiveFor userId id' ∨ p'.Covers id' := by
      intro id' hactive
      refine (h.lawful.activeFor_of_extend hcarries hactive).imp_right ?_
      rintro ⟨stored, hmem, hid, hactivates⟩
      exact .inl ⟨stored, hlands.mem_heeds hmem hactivates, hid⟩
    have hp' : p' ∈ before ++ p' :: after := List.mem_append_cons_self
    rcases hnew a ha, hnew b hb with ⟨hola | hcovers, holdb | hcovers'⟩
    · exact exists_mem_swap (Or.imp (hlater a ha) (hlater b hb)) (h.covered userId a b hne hola holdb)
    · exact ⟨p', hp', .inr hcovers'⟩
    · exact ⟨p', hp', .inl hcovers⟩
    · exact ⟨p', hp', .inl hcovers⟩

/-- What is dispatched is heard. -/
theorem dispatch {stored : StoredEvent} {todo : List StoredEvent}
    (h : Promised log (before ++ p :: after) heard reg m) (htodo : p.todo = stored :: todo) :
    Promised log (before ++ { p with todo } :: after) (heard ++ [stored.envelope])
      (reg.dispatch stored.envelope m).1.2 (reg.dispatch stored.envelope m).2 := by
  have hsound : p.Sound log heard := h.sound p (List.mem_append_cons_self)
  have hmem : stored ∈ log.commits := hsound.todo stored (htodo ▸ List.mem_cons_self)
  have henvelope : stored.envelope ∈ log.envelopes := List.mem_map_of_mem hmem
  have hpasses := (h.hears.tracked.dispatch_steady h.lawful trivial henvelope).2
  have hheard : heard ⊆ heard ++ [stored.envelope] := List.subset_append_left _ _
  have hlast : stored.envelope ∈ heard ++ [stored.envelope] := by simp
  have hmove : ∀ other ∈ p.todo, other.envelope ∈ heard ++ [stored.envelope] ∨ other ∈ todo := by
    rw [htodo, List.forall_mem_cons]
    exact ⟨.inl hlast, fun _ => .inr⟩
  exact {
    events := hpasses.later.trans h.events
    lawful := h.lawful
    hears := h.hears.dispatch h.lawful henvelope
    sound := by
      refine forall_mem_swap h.sound (fun _ hsound => hsound.later (List.Subset.refl _) hheard) fun _ => ?_
      refine ⟨fun other hother => hsound.todo other (htodo ▸ List.mem_cons_of_mem _ hother), ?_⟩
      intro other hother
      rcases hsound.heeds other hother with htodo' | hmem'
      · exact (hmove other htodo').symm
      · exact .inr (hheard hmem')
    told := fun other hother =>
      (h.told other hother).elim (fun hmem' => .inl (hheard hmem')) (exists_mem_swap_or (hmove other))
    heeded := fun other hother hactivates => (h.heeded other hother hactivates).imp
      (fun hle => Nat.le_trans hle (hpasses.cursor_le _)) (exists_mem_swap (a := p) id)
    covered := fun userId a b hne ha hb => exists_mem_swap (a := p) id (h.covered userId a b hne ha hb) }

theorem passed {promises : List Promise} (h : Promised log promises heard reg m) (hp : p ∈ promises)
    (htodo : p.todo = []) {stored : StoredEvent} (hheeds : stored ∈ p.heeds)
    (hprompt : ∀ r ∈ reg.runners, ∀ e ∈ r.backlog.envelopes, e.aggregateId ≠ stored.aggregateId) :
    stored.sequenceNumber ≤ m.cursor stored.aggregateId := by
  obtain ⟨r, outcomes, hr, hfed⟩ := h.hears.runner
  have hheard : stored.envelope ∈ heard := by
    have hplace := (h.sound p hp).heeds stored hheeds
    rw [htodo] at hplace
    exact hplace.resolve_left List.not_mem_nil
  refine (hfed.accounts _ hheard).resolve_right fun hparked => ?_
  exact hprompt r (hr ▸ List.mem_cons_self) _ hparked rfl

/-- With a look at the rows, an activation has been heeded if the rows have come past it. -/
theorem lists {id : AggregateId} (h : Promised log (before ++ p :: after) heard reg m)
    (hlists : p.Lists log id m.rows.values p')
    (hprompt : ∀ r ∈ reg.runners, ∀ e ∈ r.backlog.envelopes, e.aggregateId ≠ id) :
    Promised log (before ++ p' :: after) heard reg m := by
  obtain ⟨stored, rfl, hheeds⟩ := hlists.heeds
  obtain ⟨htodo, htodo'⟩ := hlists.todo
  have hp : p ∈ before ++ p :: after := List.mem_append_cons_self
  have hp' : p' ∈ before ++ p' :: after := List.mem_append_cons_self
  have hpassed := h.passed hp htodo (hheeds ▸ List.mem_cons_self) hprompt
  have hheeded : Heeded log m.cursor (before ++ p' :: after) := by
    intro other hother hactivates
    refine (h.heeded other hother hactivates).elim .inl (exists_mem_swap_or fun hmem => ?_)
    rw [hheeds] at hmem
    rcases List.mem_cons.mp hmem with rfl | hmem
    · exact .inl hpassed
    · exact .inr hmem
  obtain ⟨r, outcomes, _, hfed⟩ := h.hears.runner
  exact {
    events := h.events
    lawful := h.lawful
    hears := h.hears
    sound := by
      refine forall_mem_swap h.sound (fun _ hsound => hsound) fun hsound => ⟨?_, fun other hmem => ?_⟩
      · rw [htodo', ← htodo]
        exact hsound.todo
      · rw [htodo', ← htodo]
        exact hsound.heeds other (hheeds ▸ List.mem_cons_of_mem _ hmem)
    told := fun other hother => (h.told other hother).imp_right <| exists_mem_swap fun hmem => by
      rw [htodo] at hmem
      exact absurd hmem List.not_mem_nil
    heeded := hheeded
    covered := by
      intro userId a b hne ha hb
      have hcases : (a = stored.aggregateId ∨ b = stored.aggregateId) ∨
          ∃ q ∈ before ++ p' :: after, q.Covers a ∨ q.Covers b := by
        refine exists_mem_swap_or (fun hp => ?_) (h.covered userId a b hne ha hb)
        rcases hp with hp | hp
        · exact (hlists.covers hp).imp .inl .inl
        · exact (hlists.covers hp).imp .inr .inr
      rcases hcases with (rfl | rfl) | hexists
      · obtain ⟨q, hq, hcovered⟩ :=
          hheeded.sibling h.lawful hfed.follows.shows hlists hp' (Ne.symm hne) ha hb
        exact ⟨q, hq, .inr hcovered⟩
      · obtain ⟨q, hq, hcovered⟩ := hheeded.sibling h.lawful hfed.follows.shows hlists hp' hne hb ha
        exact ⟨q, hq, .inl hcovered⟩
      · exact hexists }

section Settled
variable {promises : List Promise} (hnone : ∀ p ∈ promises, p = ⟨[], [], []⟩)
include hnone

/-- Once nothing is left to be dispatched, the rows are at the end of the log. -/
theorem current (h : Promised log promises heard reg m) : Engine.Current reg m := by
  have hheard : ∀ e ∈ log.envelopes, e ∈ heard := by
    rw [EventLog.envelopes, List.forall_mem_map]
    intro stored hmem
    refine (h.told stored hmem).resolve_right ?_
    rintro ⟨p, hp, htodo⟩
    rw [hnone p hp] at htodo
    exact List.not_mem_nil htodo
  exact .of_events h.events h.lawful h.hears.tracked (h.hears.atEnd h.lawful hheard) h.hears.failures

/-- Once nobody is heeded or pursued, no user has two active profiles. -/
theorem singleActive (h : Promised log promises heard reg m) : log.SingleActive := by
  have hfree : ∀ p ∈ promises, ∀ id, ¬p.Covers id := by
    intro p hp id hcovers
    rw [hnone p hp] at hcovers
    rcases hcovers with ⟨_, hmem, _⟩ | hmem <;> exact List.not_mem_nil hmem
  intro userId a b ha hb
  by_contra hne
  obtain ⟨p, hp, hcovers⟩ := h.covered userId a b hne ha hb
  exact hcovers.elim (hfree p hp a) (hfree p hp b)

end Settled

end Promised

end IdentityLedger
