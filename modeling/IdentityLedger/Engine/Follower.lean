import IdentityLedger.Engine.Memory

/-!
# Engines in memory and what follows them

An engine in memory publishes what it commits to the bus of its memory. The other half of
an asynchronous engine is a follower: it subscribes before anything is published, and feeds
what it receives to the registry in the order of arrival.
-/
namespace IdentityLedger

/-- The publisher that a bus in a larger state is; it never refuses a message. -/
def Bus.publisher {ω μ : Type} (cell : Cell ω (Bus μ)) : Publisher ω μ where
  publish message := cell.run fun bus => (.ok (), bus.publish message)

inductive BootstrapError where
  | config (error : ConfigError)
  | missingDatabaseUrl
  | database

def BootstrapError.message : BootstrapError → String
  | config error => error.message
  | missingDatabaseUrl => "DATABASE_URL is not set"
  | database => "database setup failed"

namespace Engine

def inMemory (config : EngineConfig) :
    StateM Memory (Except ConfigError (Engine Memory × Registry Memory)) :=
  assemble config (EventLog.store Memory.eventCell) (RowTable.store Memory.rowCell)
    (CursorTable.store Memory.cursorCell) (Bus.publisher Memory.busCell)

/-- Why an engine on a database cannot be had where no database can be reached. The URL is
looked at before anything else. -/
def databaseError (config : EngineConfig) : BootstrapError :=
  match config.databaseUrl with
  | none => .missingDatabaseUrl
  | some _ => .database

variable {ω : Type} [Journal ω]

/-- Feeds everything queued for a subscription to the registry. -/
def follow (bus : Cell ω (Bus (Envelope Json))) (subscription : Nat) (registry : Registry ω) :
    StateM ω (Registry ω) := do
  let queued ← bus.run fun b => b.drain subscription
  registry.dispatchAll (queued.getD [])

end Engine

end IdentityLedger
