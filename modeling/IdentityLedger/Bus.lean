/-!
# The broadcast bus

Every live subscription receives a copy of every message published after it was
made, in order. A dropped subscription is noticed, and counted out, at the next
publication. Once the bus is closed, what is queued can still be received.
-/
namespace IdentityLedger

structure Subscription (μ : Type) where
  number : Nat
  queue : List μ
  live : Bool

structure Bus (μ : Type) where
  subscriptions : List (Subscription μ)
  issued : Nat
  isOpen : Bool

inductive Received (μ : Type) where
  | message (value : μ)
  | empty
  | disconnected
  | dropped

namespace Bus
variable {μ : Type}

def new : Bus μ := ⟨[], 0, true⟩

/-- Subscriptions attached as of the last publication. -/
def subscriberCount (b : Bus μ) : Nat := b.subscriptions.length

def subscribe (b : Bus μ) : Nat × Bus μ :=
  (b.issued, { b with subscriptions := b.subscriptions ++ [⟨b.issued, [], true⟩], issued := b.issued + 1 })

def publish (b : Bus μ) (message : μ) : Bus μ :=
  { b with
    subscriptions := (b.subscriptions.filter Subscription.live).map fun s =>
      { s with queue := s.queue ++ [message] } }

def find? (b : Bus μ) (number : Nat) : Option (Subscription μ) :=
  b.subscriptions.find? fun s => s.number = number ∧ s.live

def modify (b : Bus μ) (number : Nat) (f : Subscription μ → Subscription μ) : Bus μ :=
  { b with subscriptions := b.subscriptions.map fun s => if s.number = number then f s else s }

def drop (b : Bus μ) (number : Nat) : Bus μ :=
  b.modify number fun s => { s with live := false, queue := [] }

def close (b : Bus μ) : Bus μ := { b with isOpen := false }

/-- Takes the oldest queued message, without waiting. -/
def receive (b : Bus μ) (number : Nat) : Received μ × Bus μ :=
  match b.find? number with
  | none => (.dropped, b)
  | some s =>
    match s.queue with
    | [] => (if b.isOpen then .empty else .disconnected, b)
    | message :: queue => (.message message, b.modify number fun s => { s with queue })

/-- Takes everything queued; none for a dropped subscription. -/
def drain (b : Bus μ) (number : Nat) : Option (List μ) × Bus μ :=
  match b.find? number with
  | none => (none, b)
  | some s => (some s.queue, b.modify number fun s => { s with queue := [] })

end Bus

/-- A place where messages can be published; it may refuse one and say why. -/
structure Publisher (ω μ : Type) where
  publish : μ → StateM ω (Except String Unit)

end IdentityLedger
