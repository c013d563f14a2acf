import IdentityLedger.Bus
import Mathlib.Data.Set.Card

/-!
# The bus is a faithful broadcast

Subscriptions are made and dropped, messages published, received and drained, in any order.
What a live subscription has received and what is still queued for it are together the
messages published since it was made, in the order of their publication. A publication and
the pruning that comes with it do not disturb this for the others, and the subscriptions that
are left are the live ones.
-/
namespace IdentityLedger.Bus
variable {μ : Type}

/-- What can be asked of a bus. -/
inductive Call (μ : Type) where
  | subscribe
  | publish (message : μ)
  | receive (number : Nat)
  | drain (number : Nat)
  | drop (number : Nat)

namespace Call

def message? : Call μ → Option μ
  | publish message => some message
  | _ => none

def isSubscribe : Call μ → Bool
  | subscribe => true
  | _ => false

end Call

def published (calls : List (Call μ)) : List μ := calls.filterMap Call.message?

def subscribed (calls : List (Call μ)) : Nat := calls.countP Call.isSubscribe

/-- A subscription was made and not dropped, and these messages were published since. -/
def Since (calls : List (Call μ)) (number : Nat) (messages : List μ) : Prop :=
  ∃ before after, calls = before ++ .subscribe :: after ∧ subscribed before = number ∧
    .drop number ∉ after ∧ published after = messages

theorem since_concat {calls : List (Call μ)} {call : Call μ} {number : Nat} {messages : List μ} :
    Since (calls ++ [call]) number messages ↔
      (call = .subscribe ∧ number = subscribed calls ∧ messages = []) ∨
        ∃ earlier, Since calls number earlier ∧ call ≠ .drop number ∧
          messages = earlier ++ call.message?.toList := by
  constructor
  · rintro ⟨before, after, hcalls, rfl, hdrop, rfl⟩
    rcases List.eq_nil_or_concat after with rfl | ⟨after, last, rfl⟩
    · obtain ⟨rfl, hcall⟩ := List.append_inj' hcalls rfl
      exact .inl ⟨List.singleton_inj.mp hcall, rfl, rfl⟩
    · rw [List.concat_eq_append] at hcalls hdrop ⊢
      rw [← List.cons_append, ← List.append_assoc] at hcalls
      obtain ⟨rfl, hcall⟩ := List.append_inj' hcalls rfl
      obtain rfl := List.singleton_inj.mp hcall
      rw [List.mem_append, List.mem_singleton, not_or] at hdrop
      refine .inr ⟨published after, ⟨before, after, rfl, rfl, hdrop.1, rfl⟩, Ne.symm hdrop.2, ?_⟩
      cases call <;> simp [published, Call.message?]
  · rintro (⟨rfl, rfl, rfl⟩ | ⟨_, ⟨before, after, rfl, rfl, hdrop, rfl⟩, hcall, rfl⟩)
    · exact ⟨calls, [], rfl, rfl, List.not_mem_nil, rfl⟩
    · refine ⟨before, after ++ [call], by simp, rfl, ?_, ?_⟩
      · simpa [hdrop] using Ne.symm hcall
      · cases call <;> simp [published, Call.message?]

/-- No number is issued twice. -/
structure Numbered (b : Bus μ) : Prop where
  lt_issued : ∀ s ∈ b.subscriptions, s.number < b.issued
  distinct : (b.subscriptions.map Subscription.number).Nodup

namespace Numbered
variable {b : Bus μ} {s t : Subscription μ}

theorem new : (new : Bus μ).Numbered := ⟨nofun, .nil⟩

theorem subscribe (h : b.Numbered) : b.subscribe.2.Numbered where
  lt_issued s hmem := by
    rcases List.mem_append.mp hmem with hmem | hmem
    · exact Nat.lt_succ_of_lt (h.lt_issued s hmem)
    · rw [List.mem_singleton.mp hmem]
      exact Nat.lt_succ_self _
  distinct := by
    rw [Bus.subscribe, List.map_append, List.nodup_append]
    refine ⟨h.distinct, List.nodup_singleton _, fun number hmem _ hnew => ?_⟩
    obtain ⟨s, hs, rfl⟩ := List.mem_map.mp hmem
    rw [List.mem_singleton.mp hnew]
    exact Nat.ne_of_lt (h.lt_issued s hs)

theorem publish (h : b.Numbered) (message : μ) : (b.publish message).Numbered where
  lt_issued s hmem := by
    obtain ⟨s, hs, rfl⟩ := List.mem_map.mp hmem
    exact h.lt_issued s (List.mem_of_mem_filter hs)
  distinct := by
    rw [Bus.publish, List.map_map]
    exact h.distinct.sublist (List.filter_sublist.map _)

theorem modify (h : b.Numbered) (number : Nat) {f : Subscription μ → Subscription μ}
    (hf : ∀ s, (f s).number = s.number) : (b.modify number f).Numbered := by
  have hkeeps (s : Subscription μ) : (if s.number = number then f s else s).number = s.number := by
    split
    · exact hf s
    · rfl
  constructor
  · intro s hmem
    obtain ⟨s, hs, rfl⟩ := List.mem_map.mp hmem
    exact (hkeeps s).symm ▸ h.lt_issued s hs
  · rw [Bus.modify, List.map_map, Function.comp_def]
    simpa only [hkeeps] using h.distinct

theorem eq_of_number_eq (h : b.Numbered) (hs : s ∈ b.subscriptions) (ht : t ∈ b.subscriptions)
    (hnumber : s.number = t.number) : s = t :=
  List.inj_on_of_nodup_map h.distinct hs ht hnumber

end Numbered

/-- A bus with what its subscriptions have received. -/
structure Exchange (μ : Type) where
  bus : Bus μ
  received : Nat → List μ

namespace Exchange

def hand (x : Exchange μ) (number : Nat) (messages : List μ) (bus : Bus μ) : Exchange μ :=
  ⟨bus, Function.update x.received number (x.received number ++ messages)⟩

def call (x : Exchange μ) : Call μ → Exchange μ
  | .subscribe => { x with bus := x.bus.subscribe.2 }
  | .publish message => { x with bus := x.bus.publish message }
  | .receive number =>
    match x.bus.receive number with
    | (.message message, bus) => x.hand number [message] bus
    | (_, bus) => { x with bus }
  | .drain number =>
    match x.bus.drain number with
    | (some messages, bus) => x.hand number messages bus
    | (none, bus) => { x with bus }
  | .drop number => { x with bus := x.bus.drop number }

/-- What calls make of a bus without subscriptions. -/
def run (calls : List (Call μ)) : Exchange μ := calls.foldl call ⟨.new, fun _ => []⟩

/-- A live subscription has received some of the messages, and the rest is queued. -/
def Holds (x : Exchange μ) (number : Nat) (messages : List μ) : Prop :=
  ∃ s ∈ x.bus.subscriptions, s.live = true ∧ s.number = number ∧
    x.received number ++ s.queue = messages

variable {x : Exchange μ} {number : Nat} {messages : List μ}

theorem holds_subscribe : Holds { x with bus := x.bus.subscribe.2 } number messages ↔
    x.Holds number messages ∨ number = x.bus.issued ∧ messages = x.received number := by
  constructor
  · rintro ⟨s, hmem, hlive, rfl, rfl⟩
    rcases List.mem_append.mp hmem with hs | hnew
    · exact .inl ⟨s, hs, hlive, rfl, rfl⟩
    · obtain rfl := List.mem_singleton.mp hnew
      exact .inr ⟨rfl, List.append_nil _⟩
  · rintro (⟨s, hs, h⟩ | ⟨rfl, rfl⟩)
    · exact ⟨s, List.mem_append_left _ hs, h⟩
    · exact ⟨_, List.mem_append_right _ (List.mem_singleton_self _), rfl, rfl, List.append_nil _⟩

theorem holds_publish (message : μ) :
    Holds { x with bus := x.bus.publish message } number messages ↔
    ∃ earlier, x.Holds number earlier ∧ messages = earlier ++ [message] := by
  constructor
  · rintro ⟨_, hmem, _, rfl, rfl⟩
    obtain ⟨s, hs, rfl⟩ := List.mem_map.mp hmem
    obtain ⟨hs, hlive⟩ := List.mem_filter.mp hs
    exact ⟨_, ⟨s, hs, hlive, rfl, rfl⟩, (List.append_assoc ..).symm⟩
  · rintro ⟨_, ⟨s, hs, hlive, rfl, rfl⟩, rfl⟩
    exact ⟨_, List.mem_map_of_mem (List.mem_filter.mpr ⟨hs, hlive⟩), hlive, rfl,
      (List.append_assoc ..).symm⟩

theorem holds_drop (dropped : Nat) : Holds { x with bus := x.bus.drop dropped } number messages ↔
    x.Holds number messages ∧ dropped ≠ number := by
  constructor
  · rintro ⟨_, hmem, hlive, rfl, rfl⟩
    obtain ⟨s, hs, rfl⟩ := List.mem_map.mp hmem
    split at hlive
    · contradiction
    · next hother =>
      rw [if_neg hother]
      exact ⟨⟨s, hs, hlive, rfl, rfl⟩, Ne.symm hother⟩
  · rintro ⟨⟨s, hs, hlive, rfl, rfl⟩, hother⟩
    exact ⟨s, List.mem_map.mpr ⟨s, hs, if_neg (Ne.symm hother)⟩, hlive, rfl, rfl⟩

theorem holds_hand (h : x.bus.Numbered) {s : Subscription μ} (hs : s ∈ x.bus.subscriptions)
    {taken rest : List μ} (hqueue : s.queue = taken ++ rest) :
    (x.hand s.number taken (x.bus.modify s.number fun s => { s with queue := rest })).Holds number
      messages ↔ x.Holds number messages := by
  have hsame : x.received s.number ++ taken ++ rest = x.received s.number ++ s.queue := by
    rw [List.append_assoc, hqueue]
  constructor
  · rintro ⟨_, hmem, hlive, rfl, rfl⟩
    obtain ⟨t, ht, rfl⟩ := List.mem_map.mp hmem
    split at hlive
    · next hnumber =>
      obtain rfl := h.eq_of_number_eq ht hs hnumber
      simp only [hand, if_true, Function.update_self, hsame]
      exact ⟨t, ht, hlive, rfl, rfl⟩
    · next hother =>
      simp only [hand, if_neg hother, Function.update_of_ne hother]
      exact ⟨t, ht, hlive, rfl, rfl⟩
  · rintro ⟨t, ht, hlive, rfl, rfl⟩
    refine ⟨_, List.mem_map_of_mem ht, ?_⟩
    by_cases hnumber : t.number = s.number
    · obtain rfl := h.eq_of_number_eq ht hs hnumber
      simp [hand, hlive, ← hsame]
    · simp [hand, hlive, hnumber]

end Exchange

/-- The live subscriptions of a bus are those that calls have left, with their messages. -/
structure Faithful (calls : List (Call μ)) (x : Exchange μ) : Prop where
  numbered : x.bus.Numbered
  issued : x.bus.issued = subscribed calls
  unheard : ∀ number, x.bus.issued ≤ number → x.received number = []
  since : ∀ number messages, Since calls number messages ↔ x.Holds number messages

namespace Faithful
variable {calls : List (Call μ)} {x : Exchange μ}

theorem start : Faithful [] (⟨.new, fun _ => []⟩ : Exchange μ) where
  numbered := .new
  issued := rfl
  unheard _ _ := rfl
  since number messages := by simp [Since, Exchange.Holds, new]

theorem hand (h : Faithful calls x) {number : Nat} {s : Subscription μ}
    (hfind : x.bus.find? number = some s) {taken rest : List μ}
    (hqueue : s.queue = taken ++ rest) :
    Faithful calls (x.hand number taken (x.bus.modify number fun s => { s with queue := rest })) := by
  have hs := List.mem_of_find?_eq_some hfind
  obtain ⟨rfl, _⟩ : s.number = number ∧ s.live = true := by simpa using List.find?_some hfind
  exact {
    numbered := h.numbered.modify _ fun _ => rfl
    issued := h.issued
    unheard := fun number hle => by
      have hother := Nat.ne_of_gt ((h.numbered.lt_issued s hs).trans_le hle)
      exact (Function.update_of_ne hother ..).trans (h.unheard number hle)
    since := fun number messages => (h.since number messages).trans
      (Exchange.holds_hand h.numbered hs hqueue).symm }

theorem subscribe (h : Faithful calls x) :
    Faithful (calls ++ [.subscribe]) { x with bus := x.bus.subscribe.2 } where
  numbered := h.numbered.subscribe
  issued := by simp [Bus.subscribe, subscribed, Call.isSubscribe, h.issued]
  unheard number hle := h.unheard number (Nat.le_of_succ_le hle)
  since number messages := by
    have hnew : number = x.bus.issued ∧ messages = x.received number ↔
        number = subscribed calls ∧ messages = [] := by
      rw [h.issued]
      exact and_congr_right fun hnumber => by rw [h.unheard number (h.issued.trans hnumber.symm).le]
    simp [since_concat, Exchange.holds_subscribe, hnew, h.since, Call.message?, or_comm]

theorem publish (h : Faithful calls x) (message : μ) :
    Faithful (calls ++ [.publish message]) { x with bus := x.bus.publish message } where
  numbered := h.numbered.publish message
  issued := by simp [Bus.publish, subscribed, Call.isSubscribe, h.issued]
  unheard := h.unheard
  since number messages := by
    simp [since_concat, Exchange.holds_publish, h.since, Call.message?]

theorem drop (h : Faithful calls x) (number : Nat) :
    Faithful (calls ++ [.drop number]) { x with bus := x.bus.drop number } where
  numbered := h.numbered.modify number fun _ => rfl
  issued := by simp [Bus.drop, Bus.modify, subscribed, Call.isSubscribe, h.issued]
  unheard := h.unheard
  since number messages := by
    simp [since_concat, Exchange.holds_drop, h.since, Call.message?, and_comm]

theorem asked (h : Faithful calls x) {call : Call μ} (hmessage : call.message? = none)
    (hsubscribe : call.isSubscribe = false) (hdrop : ∀ number, call ≠ .drop number) :
    Faithful (calls ++ [call]) x where
  numbered := h.numbered
  issued := by simp [subscribed, hsubscribe, h.issued]
  unheard := h.unheard
  since number messages := by
    have hcall : call ≠ .subscribe := fun heq => by simp [heq, Call.isSubscribe] at hsubscribe
    simp [since_concat, hcall, hdrop, hmessage, h.since]

theorem call (h : Faithful calls x) (call : Call μ) : Faithful (calls ++ [call]) (x.call call) := by
  cases call with
  | subscribe => exact h.subscribe
  | publish message => exact h.publish message
  | drop number => exact h.drop number
  | receive number =>
    refine Faithful.asked ?_ rfl rfl nofun
    rw [Exchange.call, Bus.receive]
    cases hfind : x.bus.find? number with
    | none => exact h
    | some s =>
      dsimp only
      cases hqueue : s.queue with
      | nil => cases x.bus.isOpen <;> exact h
      | cons message queue => exact h.hand hfind hqueue
  | drain number =>
    refine Faithful.asked ?_ rfl rfl nofun
    rw [Exchange.call, Bus.drain]
    cases hfind : x.bus.find? number with
    | none => exact h
    | some s => exact h.hand hfind (List.append_nil _).symm

theorem run (calls : List (Call μ)) : Faithful calls (Exchange.run calls) := by
  induction calls using List.reverseRecOn with
  | nil => exact start
  | append_singleton calls call ih =>
    rw [Exchange.run, List.foldl_concat]
    exact ih.call call

theorem find?_eq (h : Faithful calls x) {number : Nat} {messages : List μ}
    (hsince : Since calls number messages) : ∃ s, x.bus.find? number = some s ∧
      x.received number ++ s.queue = messages := by
  obtain ⟨s, hs, hlive, rfl, rfl⟩ := (h.since number messages).mp hsince
  cases hfind : x.bus.find? s.number with
  | none => simpa [hlive] using List.find?_eq_none.mp hfind s hs
  | some t =>
    have hnumber : t.number = s.number ∧ t.live = true := by simpa using List.find?_some hfind
    obtain rfl := h.numbered.eq_of_number_eq (List.mem_of_find?_eq_some hfind) hs hnumber.1
    exact ⟨t, rfl, rfl⟩

theorem subscriberCount_publish (h : Faithful calls x) (message : μ) :
    (x.bus.publish message).subscriberCount =
      {number | ∃ messages, Since calls number messages}.ncard := by
  let live := (x.bus.subscriptions.filter Subscription.live).map Subscription.number
  have hdistinct : live.Nodup := h.numbered.distinct.sublist (List.filter_sublist.map _)
  have hlive : {number | ∃ messages, Since calls number messages} = ↑live.toFinset := by
    ext number
    simp [h.since, Exchange.Holds, live, and_assoc]
  rw [hlive, Set.ncard_coe_finset, List.toFinset_card_of_nodup hdistinct]
  simp [live, subscriberCount, Bus.publish]

end Faithful

/-- Whatever subscriptions are made, drained and dropped in between: what a live subscription
has received and what is queued for it are the messages published since it was made, in the
order of their publication and each once. A publication counts exactly the subscriptions that
are live when it is made. -/
theorem run_broadcasts (calls : List (Call μ)) :
    let x := Exchange.run calls
    (∀ number messages, Since calls number messages →
      ∃ s, x.bus.find? number = some s ∧ x.received number ++ s.queue = messages) ∧
    ∀ message, (x.bus.publish message).subscriberCount =
      {number | ∃ messages, Since calls number messages}.ncard :=
  have h := Faithful.run calls
  ⟨fun _ _ => h.find?_eq, h.subscriberCount_publish⟩

/-- A subscription that has received one of three messages, while another was made and dropped. -/
theorem run_broadcasts_crossing :
    let calls : List (Call Nat) := [.subscribe, .publish 1, .subscribe, .publish 2, .receive 0,
      .drop 1, .publish 3]
    Since calls 0 [1, 2, 3] ∧ (Exchange.run calls).received 0 = [1] ∧
      ∃ s, (Exchange.run calls).bus.find? 0 = some s ∧
        (Exchange.run calls).received 0 ++ s.queue = [1, 2, 3] := by
  intro calls
  have hsince : Since calls 0 [1, 2, 3] := ⟨[], calls.tail, rfl, rfl, by simp [calls], rfl⟩
  exact ⟨hsince, rfl, (run_broadcasts calls).1 0 _ hsince⟩

end IdentityLedger.Bus
