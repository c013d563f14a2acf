import IdentityLedger.Proofs.Projection.Refusals
import IdentityLedger.Proofs.Projection.Retries

/-!
# What attempts are counted

The queue has a number of attempts for each update in it. Whatever a registry does but a
rebuild, that number grows by one with each refusal, and what a retry takes out of the queue it
puts back with it; only where an update has been queued in the meantime, and its retry then
fails as well, the two numbers are added up and that last refusal is not counted.
-/
namespace IdentityLedger
variable {ω : Type}

namespace Outbox
variable {o : Outbox} {failure : FailedUpdate} {change : FailedUpdate → FailedUpdate}
variable {key : String × Uuid}

def attemptsOf (o : Outbox) (key : String × Uuid) : Nat :=
  ((o.queued? key.1 key.2).map FailedUpdate.attempts).getD 0

/-- No update is queued twice, and all of them are by numbered envelopes. -/
structure Tidy (o : Outbox) : Prop where
  numbered : o.Queues fun e => 0 < e.sequenceNumber
  keys : (o.failed.map FailedUpdate.key).Nodup

theorem attemptsOf_of_mem (h : (o.failed.map FailedUpdate.key).Nodup) (hmem : failure ∈ o.failed) :
    o.attemptsOf failure.key = failure.attempts := by
  cases hfound : o.queued? failure.key.1 failure.key.2 with
  | none => exact absurd (List.mem_map_of_mem hmem) (queued?_eq_none.mp hfound)
  | some f =>
    have hkey : f.key = failure.key := FailedUpdate.isFor_iff.mp (List.find?_some hfound)
    rw [attemptsOf, hfound, List.inj_on_of_nodup_map h (List.mem_of_find?_eq_some hfound) hmem hkey]
    rfl

theorem find?_amend (hchange : ∀ f, (change f).key = f.key) (key : String × Uuid)
    (failures : List FailedUpdate) :
    (amend key.1 key.2 change failures).find? (FailedUpdate.isFor key.1 key.2) =
      (failures.find? (FailedUpdate.isFor key.1 key.2)).map change := by
  induction failures with
  | nil => rfl
  | cons f failures ih =>
    rw [amend]
    by_cases hfor : f.isFor key.1 key.2 = true
    · have hfor' : (change f).isFor key.1 key.2 = true := by
        rw [FailedUpdate.isFor_iff, hchange]
        exact FailedUpdate.isFor_iff.mp hfor
      rw [if_pos hfor, List.find?_cons_of_pos hfor', List.find?_cons_of_pos hfor]
      rfl
    · rw [if_neg hfor, List.find?_cons_of_neg hfor, List.find?_cons_of_neg hfor, ih]

theorem find?_amend_of_ne (hchange : ∀ f, (change f).key = f.key) {other : String × Uuid}
    (hother : other ≠ key) (failures : List FailedUpdate) :
    (amend key.1 key.2 change failures).find? (FailedUpdate.isFor other.1 other.2) =
      failures.find? (FailedUpdate.isFor other.1 other.2) := by
  induction failures with
  | nil => rfl
  | cons f failures ih =>
    rw [amend]
    by_cases hfor : f.isFor key.1 key.2 = true
    · have hkey : f.key = key := FailedUpdate.isFor_iff.mp hfor
      have hne (g : FailedUpdate) (hg : g.key = key) : ¬g.isFor other.1 other.2 = true :=
        fun hfor' => hother ((FailedUpdate.isFor_iff.mp hfor').symm.trans hg)
      rw [if_pos hfor, List.find?_cons_of_neg (hne _ ((hchange f).trans hkey)),
        List.find?_cons_of_neg (hne f hkey)]
    · rw [if_neg hfor, List.find?_cons, List.find?_cons, ih]

/-- An update that is queued, or changed, is there afterwards; the others are as they were. -/
theorem queued?_enqueue (hchange : ∀ f, (change f).key = f.key) (key : String × Uuid) :
    (o.enqueue failure change).queued? key.1 key.2 =
      if key = failure.key then some (((o.queued? key.1 key.2).map change).getD failure)
      else o.queued? key.1 key.2 := by
  have hself : failure.isFor failure.key.1 failure.key.2 = true := FailedUpdate.isFor_iff.mpr rfl
  rw [enqueue, queued?]
  by_cases hkey : key = failure.key
  · subst hkey
    rw [if_pos rfl]
    change _ = some (((o.queued? failure.projection failure.envelope.eventId).map change).getD failure)
    cases hfound : o.queued? failure.projection failure.envelope.eventId with
    | some f =>
      have hchanged := find?_amend hchange failure.key o.failed
      exact hchanged.trans (congrArg (Option.map change) hfound)
    | none =>
      dsimp only
      rw [List.find?_append, List.find?_cons_of_pos hself]
      exact congrArg (Option.or · (some failure)) hfound
  · rw [if_neg hkey]
    cases o.queued? failure.projection failure.envelope.eventId with
    | some f => exact find?_amend_of_ne hchange hkey o.failed
    | none =>
      have hother : ¬failure.isFor key.1 key.2 = true :=
        fun hfor => hkey (FailedUpdate.isFor_iff.mp hfor).symm
      dsimp only
      rw [List.find?_append, List.find?_cons_of_neg hother, List.find?_nil, Option.or_none]
      rfl

theorem attemptsOf_enqueue (hchange : ∀ f, (change f).key = f.key) (key : String × Uuid) :
    (o.enqueue failure change).attemptsOf key =
      if key = failure.key then
        ((o.queued? key.1 key.2).map fun f => (change f).attempts).getD failure.attempts
      else o.attemptsOf key := by
  rw [attemptsOf, queued?_enqueue hchange]
  split
  · cases o.queued? key.1 key.2 <;> rfl
  · rfl

variable [Journal ω] (w : ω)

theorem attemptsOf_recordFailure (projection : String) (e : Envelope Json) (error : ProjectionError)
    (key : String × Uuid) : (o.recordFailure projection e error w).1.attemptsOf key =
      o.attemptsOf key + (entriesOf projection [e]).count key := by
  rw [recordFailure_eq, attemptsOf_enqueue (by intro; rfl), entriesOf, List.map_singleton,
    List.count_singleton]
  change (if key = (projection, e.eventId) then _ else _) = _
  by_cases hkey : key = (projection, e.eventId)
  · subst hkey
    rw [if_pos rfl, attemptsOf]
    cases o.queued? projection e.eventId <;> simp
  · rw [if_neg hkey, if_neg (by simpa using Ne.symm hkey), Nat.add_zero]

theorem attemptsOf_recordStalled (projection : String) (stalled : List StalledEnvelope)
    (key : String × Uuid) : (recordStalled projection stalled o w).1.attemptsOf key =
      o.attemptsOf key +
        (entriesOf projection (stalled.map StalledEnvelope.envelope)).count key := by
  induction stalled generalizing o w with
  | nil => rfl
  | cons s stalled ih =>
    have hfirst := o.attemptsOf_recordFailure w projection s.envelope s.error key
    refine ((ih _).trans (congrArg (· + _) hfirst)).trans ?_
    rw [Nat.add_assoc, ← List.count_append]
    rfl

theorem attemptsOf_settle (projection : String) (progress : Progress) (key : String × Uuid) :
    (o.settle projection progress w).1.2.attemptsOf key = o.attemptsOf key +
      (entriesOf projection (progress.stalled.map StalledEnvelope.envelope)).count key :=
  attemptsOf_recordStalled (o := (o.signal projection progress.applied).2) w projection _ key

/-- A failure that is put back has been attempted once more. If the same update has been queued
in the meantime, this is not counted. -/
theorem attemptsOf_requeue (failure : FailedUpdate) (error : ProjectionError)
    (key : String × Uuid) : (o.requeue failure error w).1.attemptsOf key = o.attemptsOf key +
      if key = failure.key then
        failure.attempts + if (o.queued? key.1 key.2).isSome then 0 else 1
      else 0 := by
  rw [requeue_eq, attemptsOf_enqueue (by intro; rfl)]
  change (if key = failure.key then _ else _) = _
  split
  · rw [attemptsOf]
    cases o.queued? key.1 key.2 <;> simp
  · rfl

namespace Tidy
variable {w} {e : Envelope Json}

omit [Journal ω] in
theorem enqueue (h : o.Tidy) (he : 0 < failure.envelope.sequenceNumber)
    (hchange : ∀ f, (change f).update = f.update) : (o.enqueue failure change).Tidy where
  numbered := queues_enqueue h.numbered he fun f => congrArg Prod.snd (hchange f)
  keys := nodup_enqueue h.keys fun f =>
    congrArg (fun update => (update.1, update.2.eventId)) (hchange f)

theorem recordFailure (h : o.Tidy) (he : 0 < e.sequenceNumber) (projection : String)
    (error : ProjectionError) : (o.recordFailure projection e error w).1.Tidy := by
  rw [recordFailure_eq]
  exact h.enqueue he fun _ => rfl

theorem recordStalled (h : o.Tidy) (projection : String) {stalled : List StalledEnvelope}
    (hstalled : ∀ s ∈ stalled, 0 < s.envelope.sequenceNumber) :
    (Outbox.recordStalled projection stalled o w).1.Tidy := by
  induction stalled generalizing o w with
  | nil => exact h
  | cons s stalled ih =>
    rw [List.forall_mem_cons] at hstalled
    exact ih (h.recordFailure (w := w) hstalled.1 projection s.error) hstalled.2

theorem settle (h : o.Tidy) (projection : String) {progress : Progress}
    (hstalled : ∀ s ∈ progress.stalled, 0 < s.envelope.sequenceNumber) :
    (o.settle projection progress w).1.2.Tidy := by
  have hsignal : (o.signal projection progress.applied).2.Tidy := ⟨h.numbered, h.keys⟩
  exact hsignal.recordStalled projection hstalled

theorem requeue (h : o.Tidy) (he : 0 < failure.envelope.sequenceNumber) (error : ProjectionError) :
    (o.requeue failure error w).1.Tidy := by
  rw [requeue_eq]
  refine h.enqueue ?_ fun _ => rfl
  exact he

end Tidy

end Outbox

namespace Registry
variable {ledger : Ledger ω} {r : Runner ω} {runners : List (Runner ω)} {o o' o'' : Outbox}
variable {e : Envelope Json} {failure : FailedUpdate} {w w' w'' : ω}
variable {retried more : List (FailedUpdate × Fate)}

/-- Whether a retry has failed, so that the update is queued again. -/
def Fate.isReturned : Fate → Bool
  | .returned _ => true
  | _ => false

def mergedOf (key : String × Uuid) (retried : List (FailedUpdate × Fate)) : Nat :=
  retried.countP fun f => f.1.key = key ∧ f.2 = .returned true

def broughtBack (key : String × Uuid) : List (FailedUpdate × Fate) → Nat
  | [] => 0
  | f :: retried =>
    (if f.1.key = key ∧ f.2.isReturned then f.1.attempts else 0) + broughtBack key retried

variable (ledger) in
/-- What is queued has been charged for what a ledger has gained while some failures were
retried. -/
structure Charged (retried : List (FailedUpdate × Fate)) (o : Outbox) (w : ω) (o' : Outbox)
    (w' : ω) : Prop where
  tidy : o'.Tidy
  charged : ∃ entries, ledger w' = ledger w ++ entries ∧ ∀ key,
    o'.attemptsOf key + mergedOf key retried =
      o.attemptsOf key + entries.count key + broughtBack key retried

theorem mergedOf_singleton (key : String × Uuid) (failure : FailedUpdate) (fate : Fate) :
    mergedOf key [(failure, fate)] =
      if failure.key = key ∧ fate = .returned true then 1 else 0 := by
  simp [mergedOf, List.countP_cons]

theorem broughtBack_singleton (key : String × Uuid) (failure : FailedUpdate) (fate : Fate) :
    broughtBack key [(failure, fate)] =
      if failure.key = key ∧ fate.isReturned then failure.attempts else 0 := rfl

theorem broughtBack_append (key : String × Uuid) (retried more : List (FailedUpdate × Fate)) :
    broughtBack key (retried ++ more) = broughtBack key retried + broughtBack key more := by
  induction retried with
  | nil => exact (Nat.zero_add _).symm
  | cons f retried ih => rw [List.cons_append, broughtBack, ih, broughtBack, Nat.add_assoc]

namespace Charged

theorem nothing (ho : o.Tidy) (h : ledger w' = ledger w) : Charged ledger [] o w o w' :=
  ⟨ho, [], h.trans (List.append_nil _).symm, fun _ => rfl⟩

theorem trans (h : Charged ledger retried o w o' w') (h' : Charged ledger more o' w' o'' w'') :
    Charged ledger (retried ++ more) o w o'' w'' := by
  obtain ⟨_, entries, hentries, hcharged⟩ := h
  obtain ⟨htidy, entries', hentries', hcharged'⟩ := h'
  refine ⟨htidy, entries ++ entries', ?_, fun key => ?_⟩
  · rw [hentries', hentries, List.append_assoc]
  · have hfirst := hcharged key
    have hrest := hcharged' key
    have hmerged : mergedOf key (retried ++ more) = mergedOf key retried + mergedOf key more :=
      List.countP_append
    rw [List.count_append, hmerged, broughtBack_append]
    omega

theorem unreturned {fate : Fate} (hfate : fate.isReturned = false)
    (h : Charged ledger [] o w o' w') : Charged ledger [(failure, fate)] o w o' w' := by
  obtain ⟨htidy, entries, hentries, hcharged⟩ := h
  refine ⟨htidy, entries, hentries, fun key => ?_⟩
  have hmerged : ¬(failure.key = key ∧ fate = .returned true) :=
    fun h => Bool.noConfusion (hfate.symm.trans (congrArg Fate.isReturned h.2))
  have hback : ¬(failure.key = key ∧ fate.isReturned = true) :=
    fun h => Bool.noConfusion (hfate.symm.trans h.2)
  rw [mergedOf_singleton, if_neg hmerged, broughtBack_singleton, if_neg hback]
  exact hcharged key

variable [Journal ω]

/-- What stalled in a pass is charged for. -/
theorem settle (hr : r.Audited ledger) (ho : o.Tidy) (projection : String) {progress : Progress}
    (hbooks : ledger.Books projection w (progress.stalled.map StalledEnvelope.envelope) w') :
    let after := o.settle projection progress w'
    Charged ledger [] o w after.1.2 after.2 := by
  have hstalled : ∀ s ∈ progress.stalled, 0 < s.envelope.sequenceNumber :=
    fun s hs => hbooks.numbered _ (List.mem_map_of_mem hs)
  have hkept := (Outbox.settle_spec hr.frame ho.numbered projection hstalled w').2
  exact ⟨ho.settle projection hstalled, _, hkept.trans hbooks.entries,
    o.attemptsOf_settle w' projection progress⟩

theorem feed (hr : r.Audited ledger) (ho : o.Tidy) (he : 0 < e.sequenceNumber) :
    let after := Registry.feed r e o w
    after.1.2.1.Audited ledger ∧ Charged ledger [] o w after.1.2.2 after.2 := by
  have hbooks := hr.apply he w
  have hrunner := r.apply_runner e w
  rw [Registry.feed, bind_apply]
  generalize r.apply e w = step at hbooks hrunner
  obtain ⟨⟨error | (progress | _ | _), r'⟩, w'⟩ := step
  all_goals
    have hr' : r'.Audited ledger := hr.of_withBacklog hrunner
    have hname : r'.name = r.name := Runner.name_of_withBacklog hrunner
  · have hkept := (Outbox.recordFailure_spec hr.frame ho.numbered he r'.name error w').2
    refine ⟨hr', ho.recordFailure (w := w') he r'.name error, _, hkept.trans hbooks.entries, ?_⟩
    intro key
    rw [← hname]
    exact o.attemptsOf_recordFailure w' r'.name e error key
  · rw [← hname] at hbooks
    exact ⟨hr', .settle hr' ho r'.name hbooks⟩
  · exact ⟨hr', .nothing ho (hbooks.entries.trans (List.append_nil _))⟩
  · exact ⟨hr', .nothing ho (hbooks.entries.trans (List.append_nil _))⟩

theorem feedAll (hr : ∀ r ∈ runners, r.Audited ledger) (ho : o.Tidy) (he : 0 < e.sequenceNumber) :
    let after := Registry.feedAll e runners o w
    (∀ r ∈ after.1.2.1, r.Audited ledger) ∧ Charged ledger [] o w after.1.2.2 after.2 := by
  induction runners generalizing o w with
  | nil => exact ⟨hr, .nothing ho rfl⟩
  | cons r runners ih =>
    rw [List.forall_mem_cons] at hr
    obtain ⟨hr', hfirst⟩ := feed (w := w) hr.1 ho he
    obtain ⟨hrunners, hrest⟩ := ih (w := (Registry.feed r e o w).2) hr.2 hfirst.tidy
    exact ⟨List.forall_mem_cons.mpr ⟨hr', hrunners⟩, hfirst.trans hrest⟩

theorem drainRunners (hr : ∀ r ∈ runners, r.Audited ledger) (ho : o.Tidy) :
    let after := Registry.drainRunners runners o w
    (∀ r ∈ after.1.1, r.Audited ledger) ∧ Charged ledger [] o w after.1.2 after.2 := by
  induction runners generalizing o w with
  | nil => exact ⟨hr, .nothing ho rfl⟩
  | cons r runners ih =>
    rw [List.forall_mem_cons] at hr
    have hbooks := hr.1.drainAll r.backlog.aggregates w
    have hrunner := r.drainAll_runner r.backlog.aggregates w
    rw [Registry.drainRunners, bind_apply]
    simp only [Runner.retryParked]
    generalize r.drainAll r.backlog.aggregates w = step at hbooks hrunner
    obtain ⟨⟨progress, r'⟩, w'⟩ := step
    have hr' : r'.Audited ledger := hr.1.of_withBacklog hrunner
    have hname : r'.name = r.name := Runner.name_of_withBacklog hrunner
    rw [← hname] at hbooks
    have hfirst : Charged ledger [] o w (o.settle r'.name progress w').1.2
        (o.settle r'.name progress w').2 := .settle hr' ho r'.name hbooks
    obtain ⟨hrunners, hrest⟩ := ih (w := (o.settle r'.name progress w').2) hr.2 hfirst.tidy
    exact ⟨List.forall_mem_cons.mpr ⟨hr', hrunners⟩, hfirst.trans hrest⟩

/-- What is retried in vain is charged for as well, unless it is merged. -/
theorem requeue (hr : r.Audited ledger) (ho : o.Tidy) (he : 0 < failure.envelope.sequenceNumber)
    (hentries : ledger w' = ledger w ++ entriesOf failure.projection [failure.envelope])
    (error : ProjectionError) :
    let after := o.requeue failure error w'
    Charged ledger [(failure, .returned (o.queued? failure.key.1 failure.key.2).isSome)] o w
      after.1 after.2 := by
  have hkept := (Outbox.requeue_spec hr.frame ho.numbered he error w').2
  refine ⟨ho.requeue (w := w') he error, _, hkept.trans hentries, fun key => ?_⟩
  have hentry : entriesOf failure.projection [failure.envelope] = [failure.key] := rfl
  rw [o.attemptsOf_requeue, mergedOf_singleton, broughtBack_singleton, hentry, List.count_singleton]
  by_cases hkey : key = failure.key
  · subst hkey
    cases (o.queued? failure.key.1 failure.key.2).isSome <;> simp [Fate.isReturned] <;> omega
  · simp [hkey, Ne.symm hkey]

theorem retryWith (hr : r.Audited ledger) (ho : o.Tidy) (he : 0 < failure.envelope.sequenceNumber)
    (hname : r.name = failure.projection) :
    let after := Registry.retryWith failure r o w
    after.1.2.1.Audited ledger ∧ Charged ledger [(failure, if after.1.1 then .resolved
      else .returned (o.queued? failure.key.1 failure.key.2).isSome)] o w after.1.2.2 after.2 := by
  have hbooks := hr.apply he w
  have hrunner := r.apply_runner failure.envelope w
  rw [Registry.retryWith, bind_apply]
  generalize r.apply failure.envelope w = step at hbooks hrunner
  obtain ⟨⟨error | (progress | _ | _), r'⟩, w'⟩ := step
  all_goals
    have hr' : r'.Audited ledger := hr.of_withBacklog hrunner
    rw [hname] at hbooks
  · exact ⟨hr', .requeue hr' ho he hbooks.entries error⟩
  · exact ⟨hr', .unreturned rfl (.settle hr' ho failure.projection hbooks)⟩
  · exact ⟨hr', .unreturned rfl (.nothing ho (hbooks.entries.trans (List.append_nil _)))⟩
  · exact ⟨hr', .unreturned rfl (.nothing ho (hbooks.entries.trans (List.append_nil _)))⟩

theorem retryOne (hr : ∀ r ∈ runners, r.Audited ledger) (ho : o.Tidy)
    (he : 0 < failure.envelope.sequenceNumber) :
    let after := Registry.retryOne failure runners o w
    (∀ r ∈ after.1.2.1, r.Audited ledger) ∧
      Charged ledger [(failure, fate failure runners o w)] o w after.1.2.2 after.2 := by
  induction runners with
  | nil => exact ⟨hr, .unreturned rfl (.nothing ho rfl)⟩
  | cons r runners ih =>
    rw [List.forall_mem_cons] at hr
    by_cases hname : r.name = failure.projection
    · obtain ⟨hr', hcharged⟩ := retryWith (w := w) hr.1 ho he hname
      rw [fate_cons hname, retryOne_cons hname]
      exact ⟨List.forall_mem_cons.mpr ⟨hr', hr.2⟩, hcharged⟩
    · obtain ⟨hrunners, hcharged⟩ := ih hr.2
      rw [fate_cons_of_ne hname, Registry.retryOne, if_neg hname]
      exact ⟨List.forall_mem_cons.mpr ⟨hr.1, hrunners⟩, hcharged⟩

theorem retryEach {failures : List FailedUpdate} (hr : ∀ r ∈ runners, r.Audited ledger)
    (ho : o.Tidy) (hfailures : ∀ f ∈ failures, 0 < f.envelope.sequenceNumber) :
    let after := Registry.retryEach failures runners o w
    (∀ r ∈ after.1.2.1, r.Audited ledger) ∧
      Charged ledger (fates failures runners o w) o w after.1.2.2 after.2 := by
  induction failures generalizing runners o w with
  | nil => exact ⟨hr, .nothing ho rfl⟩
  | cons failure failures ih =>
    rw [List.forall_mem_cons] at hfailures
    obtain ⟨hrunners, hfirst⟩ := retryOne (w := w) hr ho hfailures.1
    obtain ⟨hrunners', hrest⟩ :=
      ih (w := (Registry.retryOne failure runners o w).2) hrunners hfirst.tidy hfailures.2
    exact ⟨hrunners', hfirst.trans hrest⟩

end Charged

end Registry

end IdentityLedger
