import IdentityLedger.Config.Retry

/-!
# Engine configuration

The settings of an engine come from a look-up of texts by key or from JSON. What is
not set has a default, and a configuration is checked before it is used.
-/
namespace IdentityLedger

/-- When committed events reach the projections: before the command returns, or by a
worker that follows a bus. -/
inductive DispatchMode where
  | synchronous
  | asynchronous
  deriving DecidableEq

namespace DispatchMode

def key : String := "PROOFING_PROJECTION_DISPATCH"

def name : DispatchMode → String
  | synchronous => "synchronous"
  | asynchronous => "asynchronous"

def text : DispatchMode → String
  | synchronous => "Synchronous"
  | asynchronous => "Asynchronous"

def ofText (value : String) : Except ConfigError DispatchMode :=
  let word := Text.keyword value
  if word = "sync" ∨ word = "synchronous" then .ok synchronous
  else if word = "async" ∨ word = "asynchronous" then .ok asynchronous
  else .error ⟨key, value, "expected 'sync' or 'async'"⟩

def ofJson? (json : Json) : Option DispatchMode := do
  match ← json.keyword? with
  | "synchronous" => some synchronous
  | "asynchronous" => some asynchronous
  | _ => none

end DispatchMode

inductive LogFormat where
  | json
  | pretty
  deriving DecidableEq

structure UnknownLogFormat where
  word : String
  deriving DecidableEq

def UnknownLogFormat.message (e : UnknownLogFormat) : String :=
  "unknown log format '" ++ e.word ++ "' (expected 'json' or 'pretty')"

namespace LogFormat

def key : String := "PROOFING_LOG_FORMAT"

def name : LogFormat → String
  | json => "json"
  | pretty => "pretty"

def ofText (value : String) : Except UnknownLogFormat LogFormat :=
  let word := Text.keyword value
  if word = "json" then .ok json
  else if word = "pretty" ∨ word = "text" then .ok pretty
  else .error ⟨word⟩

def ofSetting (value : String) : Except ConfigError LogFormat :=
  match ofText value with
  | .ok format => .ok format
  | .error error => .error ⟨key, value, error.message⟩

def ofJson? (value : Json) : Option LogFormat := do
  match ← value.keyword? with
  | "json" => some json
  | "pretty" => some pretty
  | _ => none

end LogFormat

structure EngineConfig where
  retry : RetryPolicy
  dispatch : DispatchMode
  /-- Without a URL, everything is kept in memory. -/
  databaseUrl : Option String
  maxConnections : Nat
  logFormat : LogFormat

namespace EngineConfig

def default : EngineConfig := ⟨.default, .synchronous, none, 10, .json⟩

def maxConnectionsKey : String := "PROOFING_DB_MAX_CONNECTIONS"

def databaseUrlKey : String := "DATABASE_URL"

def error? (c : EngineConfig) : Option ConfigError :=
  match c.retry.error? with
  | some error => some error
  | none =>
    if c.maxConnections = 0 then
      some ⟨maxConnectionsKey, "0", "the pool needs at least one connection"⟩
    else none

/-- Changes a configuration by a setting that is given. -/
def withSetting {α : Type} (lookup : String → Option String) (key : String)
    (parse : String → Except ConfigError α) (set : α → EngineConfig → EngineConfig)
    (c : EngineConfig) : Except ConfigError EngineConfig :=
  match lookup key with
  | none => .ok c
  | some value => (parse value).map fun a => set a c

def isBlankText (s : String) : Bool := s.toList.all Text.isBlank

/-- Reads the settings that are given, in a fixed order, and checks the result. A database
URL of blanks alone counts as not given. -/
def ofSettings (lookup : String → Option String) : Except ConfigError EngineConfig := do
  let c ← withSetting lookup RetryPolicy.maxAttemptsKey
    (Setting.parse (Numeric.readNat UInt32.size) RetryPolicy.maxAttemptsKey)
    (fun n c => { c with retry.maxAttempts := n.val }) default
  let c ← withSetting lookup RetryPolicy.baseDelayKey
    (Setting.parse (Numeric.readNat UInt64.size) RetryPolicy.baseDelayKey)
    (fun n c => { c with retry.baseDelay := .ofMillis n.val n.isLt }) c
  let c ← withSetting lookup RetryPolicy.maxDelayKey
    (Setting.parse (Numeric.readNat UInt64.size) RetryPolicy.maxDelayKey)
    (fun n c => { c with retry.maxDelay := .ofMillis n.val n.isLt }) c
  let c ← withSetting lookup RetryPolicy.multiplierKey
    (Setting.parse Numeric.readFloat RetryPolicy.multiplierKey)
    (fun x c => { c with retry.multiplier := x }) c
  let c ← withSetting lookup DispatchMode.key DispatchMode.ofText
    (fun mode c => { c with dispatch := mode }) c
  let c ← withSetting lookup LogFormat.key LogFormat.ofSetting
    (fun format c => { c with logFormat := format }) c
  let c ← withSetting lookup maxConnectionsKey
    (Setting.parse (Numeric.readNat UInt32.size) maxConnectionsKey)
    (fun n c => { c with maxConnections := n.val }) c
  let c := { c with databaseUrl := (lookup databaseUrlKey).filter fun url => !isBlankText url }
  match c.error? with
  | some error => .error error
  | none => .ok c

def ofJson? (json : Json) : Option EngineConfig := do
  let r ← Json.Record.ofJsonPartial? 5 json
  let retry ← r.defaulted? 0 "retry" RetryPolicy.ofJson? default.retry
  let dispatch ← r.defaulted? 1 "projection_dispatch" DispatchMode.ofJson? default.dispatch
  let databaseUrl ← r.defaulted? 2 "database_url" (Json.option? Json.string?) default.databaseUrl
  let maxConnections ← r.defaulted? 3 "database_max_connections" Json.count32? default.maxConnections
  let logFormat ← r.defaulted? 4 "log_format" LogFormat.ofJson? default.logFormat
  pure { retry, dispatch, databaseUrl, maxConnections, logFormat }

end EngineConfig

end IdentityLedger
