import IdentityLedger.CommandHandler
import IdentityLedger.Config.Engine
import IdentityLedger.EventStore.Publishing
import IdentityLedger.Policy
import IdentityLedger.Projection.Profiles
import IdentityLedger.Projection.Registry
import IdentityLedger.Text.Quoted

/-!
# The profile engine

The engine handles commands, keeps the read model up to date, and enforces that a
user has at most one active profile. In synchronous mode committed events reach the
registry before the command returns; in asynchronous mode they are published for a
worker to follow.
-/
namespace IdentityLedger

namespace CommandHandler
variable {ω : Type} [IdSupply ω] [Journal ω]

/-- Handles a command and, if asked to, feeds what it committed to a registry. -/
def handleInto (h : CommandHandler ω) (synchronous : Bool) (registry : Registry ω)
    (command : ProfileCommand) : StateM ω (Except DispatchError CommandOutcome × Registry ω) := do
  match ← h.handle command with
  | .error error => pure (.error error, registry)
  | .ok outcome =>
    if synchronous then
      let registry ← registry.dispatchAll (outcome.committed.map StoredEvent.envelope)
      pure (.ok outcome, registry)
    else pure (.ok outcome, registry)

end CommandHandler

structure Engine (ω : Type) where
  handler : CommandHandler ω
  rows : RowStore ω
  mode : DispatchMode

namespace Engine
variable {ω : Type}

def isSynchronous (e : Engine ω) : Bool := e.mode = .synchronous

def text (e : Engine ω) (registry : Registry ω) : String :=
  "ProfileEngine \x7b mode: " ++ e.mode.text ++ ", registry: " ++ registry.text ++ ", .. \x7d"

def profile (e : Engine ω) (id : AggregateId) :
    StateM ω (Except ProjectionError (Option ProfileRow)) := e.rows.get id

def profiles (e : Engine ω) : StateM ω (Except ProjectionError (List ProfileRow)) := e.rows.list

variable [Journal ω]

def catchUp (e : Engine ω) (registry : Registry ω) :
    StateM ω (Except EventStoreError Nat × Registry ω) := registry.catchUp e.handler.store

def rebuildProjections (e : Engine ω) (registry : Registry ω) :
    StateM ω (Except RebuildError Nat × Registry ω) := registry.rebuild e.handler.store

/-- Wires an engine and its registry, unless the configuration cannot be used. The
publisher is where an asynchronous engine announces what it has committed. -/
def assemble (config : EngineConfig) (store : EventStore ω) (rows : RowStore ω)
    (cursors : CursorStore ω) (publisher : Publisher ω (Envelope Json)) :
    StateM ω (Except ConfigError (Engine ω × Registry ω)) := do
  match config.error? with
  | some error => pure (.error error)
  | none =>
    let registry := Registry.new [Runner.new (profileProjection rows) cursors]
    let store := match config.dispatch with
      | .synchronous => store
      | .asynchronous => store.publishing publisher
    Journal.report .info "profile engine assembled"
      [("mode", .text config.dispatch.text), ("projectors", .text (Text.quotedList registry.names))]
    pure (.ok (⟨⟨store, config.retry⟩, rows, config.dispatch⟩, registry))

variable [IdSupply ω]

def handleAlone (e : Engine ω) (registry : Registry ω) (command : ProfileCommand) :
    StateM ω (Except DispatchError CommandOutcome × Registry ω) :=
  e.handler.handleInto e.isSynchronous registry command

/-- Makes siblings step down, one after another. One that has stepped down already, or that
cannot be reached, is reported and passed over. -/
def supersedeEach (e : Engine ω) (activation : Activation) :
    Registry ω → List ProfileCommand → StateM ω (Registry ω)
  | registry, [] => pure registry
  | registry, command :: commands => do
    let superseder := ("superseded_by", FieldValue.text activation.profileId.text)
    let (result, registry) ← e.handleAlone registry command
    match result with
    | .ok outcome =>
      Journal.report .info "profile superseded"
        [("profile_id", .text outcome.aggregateId.text), superseder]
    | .error (.validation reason) =>
      Journal.report .debug "sibling no longer active" [superseder, ("reason", .text reason)]
    | .error error =>
      Journal.report .warn "failed to supersede sibling profile"
        [superseder, ("err", .text error.message)]
    e.supersedeEach activation registry commands

/-- Makes the siblings of an activated profile step down: its user is read from its
stream, the siblings from the rows. -/
def supersedeSiblings (e : Engine ω) (registry : Registry ω) (activation : Activation) :
    StateM ω (Registry ω) := do
  let profileId := ("profile_id", FieldValue.text activation.profileId.text)
  match ← Repository.load e.handler.store activation.profileId with
  | .error error =>
    Journal.report .warn "could not load activated profile" [profileId, ("err", .text error.message)]
    pure registry
  | .ok profile =>
    match profile.userId with
    | none => pure registry
    | some userId =>
      match ← e.rows.list with
      | .error error =>
        Journal.report .warn "could not list profiles; siblings left active"
          [profileId, ("err", .text error.message)]
        pure registry
      | .ok rows =>
        e.supersedeEach activation registry (SingleActiveProfile.react activation userId rows)

def supersedeAll (e : Engine ω) : Registry ω → List Activation → StateM ω (Registry ω)
  | registry, [] => pure registry
  | registry, activation :: activations => do
    let registry ← e.supersedeSiblings registry activation
    e.supersedeAll registry activations

/-- Handles a command and, if it activated a profile, makes the siblings step down. -/
def handle (e : Engine ω) (registry : Registry ω) (command : ProfileCommand) :
    StateM ω (Except DispatchError CommandOutcome × Registry ω) := do
  match ← e.handleAlone registry command with
  | (.error error, registry) => pure (.error error, registry)
  | (.ok outcome, registry) =>
    let registry ← e.supersedeAll registry (SingleActiveProfile.activations outcome.committed)
    pure (.ok outcome, registry)

end Engine

end IdentityLedger
