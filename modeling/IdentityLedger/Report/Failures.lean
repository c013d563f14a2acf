import IdentityLedger.DispatchError
import IdentityLedger.Json.Basic
import IdentityLedger.Projection.Registry

/-!
# Failures as answers

A failure is answered with its kind and its text. A failure that another one caused
carries the cause along, but why a payload does not decode is left out.
-/
namespace IdentityLedger
open Json

namespace Report

def failure (kind message : String) (details : List (String × Json)) : Json :=
  .obj (("error", .str kind) :: ("message", .str message) :: details)

def unreadable : Json := .obj [("error", .str "Deserialize")]

/-- The answer to an operation that may fail. -/
def answer {ε α : Type} (error : ε → Json) (value : α → Json) : Except ε α → Json
  | .error e => error e
  | .ok a => value a

def done : Json := .str "ok"

end Report

open Report

namespace DomainError

def kind : DomainError → String
  | validation _ => "Validation"
  | invariantViolation _ => "InvariantViolation"
  | invalidId _ => "InvalidId"
  | notFound => "NotFound"

def toJson (e : DomainError) : Json := failure e.kind e.message []

end DomainError

namespace EventStoreError

def kind : EventStoreError → String
  | concurrency _ => "Concurrency"
  | aggregateTypeMismatch _ => "AggregateTypeMismatch"
  | invalidAppend _ => "InvalidAppend"
  | storage _ => "Storage"

def toJson (e : EventStoreError) : Json :=
  failure e.kind e.message [("is_concurrency", .bool e.isConcurrency)]

end EventStoreError

namespace ProjectionError

def kind : ProjectionError → String
  | deserialize _ _ => "Deserialize"
  | nonMonotonicSequence _ _ => "NonMonotonicSequence"
  | incompleteHistory _ _ => "IncompleteHistory"
  | missingRecord _ => "MissingRecord"
  | store _ => "Store"

def toJson (e : ProjectionError) : Json := failure e.kind e.summary []

end ProjectionError

namespace DispatchError

def kind : DispatchError → String
  | validation _ => "Validation"
  | invariantViolation _ => "InvariantViolation"
  | notFound _ => "NotFound"
  | alreadyExists _ => "AlreadyExists"
  | concurrency _ => "Concurrency"
  | conflict _ _ => "Conflict"
  | deserialize _ _ _ => "Deserialize"
  | corruptStream _ => "CorruptStream"
  | store _ => "Store"
  | delayTooLong _ => "DelayTooLong"

def cause : DispatchError → List (String × Json)
  | store error => [("source", error.toJson)]
  | _ => []

def toJson (e : DispatchError) : Json := failure e.kind e.summary e.cause

end DispatchError

namespace RebuildError

/-- A failed rebuild is answered with its cause and not with a text of its own. -/
def toJson : RebuildError → Json
  | store error =>
    failure "Store" (store error).message [("source", error.toJson)]
  | projection name error =>
    .obj [("error", .str "Projection"), ("projection", .str name), ("source", error.toJson)]

end RebuildError

end IdentityLedger
