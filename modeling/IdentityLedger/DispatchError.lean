import IdentityLedger.EventStore.Basic
import IdentityLedger.Json.DecodeError
import IdentityLedger.Profile.Rejection

/-!
# Why a command fails

A command fails by a domain error of its target, by what its stream holds, by lost
races, or by the store.
-/
namespace IdentityLedger

inductive DispatchError where
  | validation (reason : String)
  | invariantViolation (reason : String)
  | notFound (id : AggregateId)
  | alreadyExists (id : AggregateId)
  /-- One append lost the race. -/
  | concurrency (reason : String)
  /-- Every attempt lost the race. -/
  | conflict (id : AggregateId) (attempts : Nat)
  | deserialize (eventType : String) (sequenceNumber : Nat) (cause : Json.DecodeError)
  /-- The loaded stream is not a gapless run from 1. -/
  | corruptStream (reason : String)
  | store (error : EventStoreError)
  /-- The delay after a lost attempt is longer than every duration. -/
  | delayTooLong (attempt : Nat)
  deriving DecidableEq

namespace DispatchError

def summary : DispatchError → String
  | validation reason => "validation failed: " ++ reason
  | invariantViolation reason => "invariant violated: " ++ reason
  | notFound id => "aggregate " ++ id.text ++ " not found"
  | alreadyExists id => "aggregate " ++ id.text ++ " already exists"
  | concurrency reason => "concurrency conflict: " ++ reason
  | conflict id attempts =>
    "aggregate " ++ id.text ++ " still conflicting after " ++ toString attempts ++ " attempts"
  | deserialize eventType number _ =>
    "failed to deserialize stored event: " ++ eventType ++ " #" ++ toString number ++ ": "
  | corruptStream reason => "corrupt stream: " ++ reason
  | store error => error.message
  | delayTooLong attempt =>
    "the delay after attempt " ++ toString attempt ++ " is longer than every duration"

def message (e : DispatchError) : String :=
  match e with
  | deserialize _ _ cause => e.summary ++ cause.message
  | _ => e.summary

def ofDomain (id : AggregateId) : DomainError → DispatchError
  | .validation reason | .invalidId reason => validation reason
  | .invariantViolation reason => invariantViolation reason
  | .notFound => notFound id

/-- A lost race is told apart from all other failures of the store. -/
def ofStore : EventStoreError → DispatchError
  | .concurrency reason => concurrency reason
  | error => store error

end DispatchError

end IdentityLedger
