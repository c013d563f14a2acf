import IdentityLedger.Config.Setting
import IdentityLedger.Duration
import IdentityLedger.Numeric.Shortest

/-!
# Retry policies

How often a command that lost a race is tried again, and how long to wait before
each new attempt: a base delay that grows by a constant factor up to a limit.
-/
namespace IdentityLedger

structure RetryPolicy where
  /-- All attempts, the first one included. -/
  maxAttempts : Nat
  baseDelay : Duration
  maxDelay : Duration
  multiplier : Float

namespace RetryPolicy
open Numeric

def default : RetryPolicy :=
  ⟨3, .ofMillis 10 (by decide), .ofMillis 1000 (by decide), 2⟩

def immediate (maxAttempts : Nat) : RetryPolicy := ⟨maxAttempts, .zero, .zero, 1⟩

def maxExponent : Nat := 2147483647

/-- The delay after failed attempt number `attempt` in seconds, counted from 1. -/
def delaySeconds (p : RetryPolicy) (attempt : Nat) : Float :=
  smaller (p.baseDelay.seconds * power p.multiplier (min (attempt - 1) maxExponent))
    p.maxDelay.seconds

/-- The delay after failed attempt number `attempt`. A number of seconds that is not a
positive finite one is no delay; there is none if the seconds exceed every duration. -/
def delayAfter (p : RetryPolicy) (attempt : Nat) : Option Duration :=
  let seconds := p.delaySeconds attempt
  if seconds.isFinite && 0 < seconds then Duration.ofSeconds? seconds else some .zero

def maxAttemptsKey : String := "PROOFING_RETRY_MAX_ATTEMPTS"

def baseDelayKey : String := "PROOFING_RETRY_BASE_DELAY_MS"

def maxDelayKey : String := "PROOFING_RETRY_MAX_DELAY_MS"

def multiplierKey : String := "PROOFING_RETRY_BACKOFF_MULTIPLIER"

def error? (p : RetryPolicy) : Option ConfigError :=
  if p.maxAttempts = 0 then
    some ⟨maxAttemptsKey, "0", "at least one attempt is required"⟩
  else if !p.multiplier.isFinite || p.multiplier < 1 then
    some ⟨multiplierKey, plainText p.multiplier, "must be a finite number >= 1.0"⟩
  else if p.baseDelay.totalNanos > p.maxDelay.totalNanos then
    some ⟨baseDelayKey, toString p.baseDelay.millis, "must not exceed the maximum delay"⟩
  else none

def text (p : RetryPolicy) : String :=
  "RetryConfig \x7b max_attempts: " ++ toString p.maxAttempts ++ ", base_delay: " ++
    p.baseDelay.text ++ ", max_delay: " ++ p.maxDelay.text ++ ", backoff_multiplier: " ++
    styledText shownStyle p.multiplier ++ " \x7d"

def ofJson? (json : Json) : Option RetryPolicy := do
  let r ← Json.Record.ofJsonPartial? 4 json
  let maxAttempts ← r.defaulted? 0 "max_attempts" Json.count32? default.maxAttempts
  let baseDelay ← r.defaulted? 1 "base_delay" Duration.ofJson? default.baseDelay
  let maxDelay ← r.defaulted? 2 "max_delay" Duration.ofJson? default.maxDelay
  let multiplier ← r.defaulted? 3 "backoff_multiplier" Json.float? default.multiplier
  pure { maxAttempts, baseDelay, maxDelay, multiplier }

end RetryPolicy

end IdentityLedger
