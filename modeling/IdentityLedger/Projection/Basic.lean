import IdentityLedger.Event.Stored

/-!
# Projections

A projection builds a read model from committed events. It says which event types it
handles; the payload of an event it does not handle is never decoded. Order and
repetition of events are not its concern.
-/
namespace IdentityLedger

inductive ProjectionError where
  | deserialize (eventType : String) (cause : Json.DecodeError)
  | nonMonotonicSequence (last found : Nat)
  /-- A history with a gap after `last`. -/
  | incompleteHistory (aggregateId : AggregateId) (last : Nat)
  | missingRecord (aggregateId : AggregateId)
  | store (reason : String)
  deriving DecidableEq

/-- The text of an error without the cause of a failed decoding. -/
def ProjectionError.summary : ProjectionError → String
  | deserialize eventType _ => "failed to deserialize " ++ eventType ++ " payload: "
  | nonMonotonicSequence last found =>
    "non-monotonic sequence number (last=" ++ toString last ++ ", found=" ++ toString found ++ ")"
  | incompleteHistory aggregateId last =>
    "history for " ++ aggregateId.text ++ " has a gap after sequence " ++ toString last
  | missingRecord aggregateId => "no read model record for " ++ aggregateId.text
  | store reason => "read model store failed: " ++ reason

def ProjectionError.message (e : ProjectionError) : String :=
  match e with
  | deserialize _ cause => e.summary ++ cause.message
  | _ => e.summary

/-- A projection whose read model is kept in a state `ω`. -/
structure Projection (ω : Type) where
  name : String
  handles : String → Bool
  /-- Applies an event of a handled type to the read model, its payload yet to be decoded. -/
  receive : Envelope Json → StateM ω (Except ProjectionError Unit)
  reset : StateM ω (Except ProjectionError Unit)

/-- Decodes the payload of an envelope and applies the event. -/
def Projection.decoded {ω ε : Type} (decode : Json.Decoder ε)
    (apply : Envelope ε → StateM ω (Except ProjectionError Unit)) (envelope : Envelope Json) :
    StateM ω (Except ProjectionError Unit) :=
  match decode envelope.payload with
  | .error cause => pure (.error (.deserialize envelope.eventType cause))
  | .ok event => apply (envelope.withPayload event)

end IdentityLedger
