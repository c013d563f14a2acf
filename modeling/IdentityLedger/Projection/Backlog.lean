import IdentityLedger.Event.Stored

/-!
# Parked envelopes

Envelopes that arrived ahead of a predecessor, at most one for each place of each
stream.
-/
namespace IdentityLedger

structure Backlog where
  envelopes : List (Envelope Json)

namespace Backlog

def empty : Backlog := ⟨[]⟩

def size (b : Backlog) : Nat := b.envelopes.length

def isAt (id : AggregateId) (number : Nat) (e : Envelope Json) : Bool :=
  e.aggregateId = id ∧ e.sequenceNumber = number

/-- Parks an envelope; one already parked for the same place gives way to it. -/
def park (b : Backlog) (envelope : Envelope Json) : Backlog :=
  ⟨b.envelopes.filter (fun e => !isAt envelope.aggregateId envelope.sequenceNumber e) ++ [envelope]⟩

def find? (b : Backlog) (id : AggregateId) (number : Nat) : Option (Envelope Json) :=
  b.envelopes.find? (isAt id number)

def remove (b : Backlog) (id : AggregateId) (number : Nat) : Backlog :=
  ⟨b.envelopes.filter fun e => !isAt id number e⟩

/-- Drops what a cursor has passed. -/
def prune (b : Backlog) (id : AggregateId) (cursor : Nat) : Backlog :=
  ⟨b.envelopes.filter fun e => !(e.aggregateId = id ∧ e.sequenceNumber ≤ cursor)⟩

def insertId (id : AggregateId) : List AggregateId → List AggregateId
  | [] => [id]
  | other :: ids =>
    if id = other then other :: ids
    else if id < other then id :: other :: ids
    else other :: insertId id ids

def aggregates (b : Backlog) : List AggregateId :=
  b.envelopes.foldl (fun ids e => insertId e.aggregateId ids) []

end Backlog

end IdentityLedger
