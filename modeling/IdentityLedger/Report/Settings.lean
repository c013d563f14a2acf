import IdentityLedger.Engine.Follower
import IdentityLedger.Report.Failures

/-!
# Settings and the journal as answers

A double among the settings is answered by its bits, in hexadecimal digits. A setting that
cannot be used is answered with its key and its text.
-/
namespace IdentityLedger
open Json Report

def Report.bitsOf (x : Float) : Json := .str (String.ofList (Text.hexDigits 16 x.toBits.toNat))

def RetryPolicy.toJson (p : RetryPolicy) : Json :=
  .obj [("max_attempts", nat p.maxAttempts), ("base_delay", p.baseDelay.toJson),
    ("max_delay", p.maxDelay.toJson), ("backoff_multiplier", Report.bitsOf p.multiplier)]

def EngineConfig.toJson (c : EngineConfig) : Json :=
  .obj [("retry", c.retry.toJson), ("projection_dispatch", .str c.dispatch.name),
    ("database_url", option .str c.databaseUrl),
    ("database_max_connections", nat c.maxConnections), ("log_format", .str c.logFormat.name)]

def ConfigError.toJson (e : ConfigError) : Json :=
  failure "Invalid" e.message
    [("key", .str e.key), ("value", .str e.value), ("reason", .str e.reason)]

def UnknownLogFormat.toJson (e : UnknownLogFormat) : Json := failure "UnknownLogFormat" e.message []

def BootstrapError.toJson : BootstrapError → Json
  | .config error => failure "Config" error.message [("source", error.toJson)]
  | .missingDatabaseUrl => failure "MissingDatabaseUrl" BootstrapError.missingDatabaseUrl.message []
  | .database => failure "Database" BootstrapError.database.message []

def FieldValue.toJson : FieldValue → Json
  | .text value => .str value
  | .number value => nat value

def JournalRecord.toJson (r : JournalRecord) : Json :=
  .obj [("level", .str r.level.name), ("message", option .str r.message),
    ("fields", .obj (r.fields.map fun (name, value) => (name, value.toJson)))]

end IdentityLedger
