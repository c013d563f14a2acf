import IdentityLedger.Bus

/-!
# What a subscriber is sent

A publication adds its message to the queue of every live subscription and keeps their
numbers. So a run of publications is found, message by message, behind whatever a
subscriber had queued before.
-/
namespace IdentityLedger.Bus
variable {μ : Type} {b : Bus μ} {number : Nat}

theorem find?_publish (b : Bus μ) (message : μ) (number : Nat) :
    (b.publish message).find? number =
      (b.find? number).map fun s => { s with queue := s.queue ++ [message] } := by
  rw [find?, publish, List.find?_map, List.find?_filter, find?]
  congr 2
  funext s
  cases hlive : s.live <;> simp [hlive]

theorem find?_foldl_publish (messages : List μ) (b : Bus μ) (number : Nat) :
    (messages.foldl publish b).find? number =
      (b.find? number).map fun s => { s with queue := s.queue ++ messages } := by
  induction messages generalizing b with
  | nil => simp
  | cons message messages ih =>
    rw [List.foldl_cons, ih, find?_publish, Option.map_map]
    congr 1
    funext s
    simp

theorem find?_subscribe (h : ∀ s ∈ b.subscriptions, s.number < b.issued) :
    b.subscribe.2.find? b.subscribe.1 = some ⟨b.issued, [], true⟩ := by
  have hold : b.subscriptions.find? (fun s => s.number = b.issued ∧ s.live) = none := by
    rw [List.find?_eq_none]
    intro s hmem hfound
    have hnumber : s.number = b.issued := (of_decide_eq_true hfound).1
    exact Nat.ne_of_lt (h s hmem) hnumber
  rw [find?, subscribe, List.find?_append, hold]
  simp

/-- What is taken after a run of publications ends with their messages. -/
theorem drain_foldl_publish (messages : List μ) {s : Subscription μ} (h : b.find? number = some s) :
    ((messages.foldl publish b).drain number).1 = some (s.queue ++ messages) := by
  rw [drain, find?_foldl_publish, h]
  rfl

end IdentityLedger.Bus
