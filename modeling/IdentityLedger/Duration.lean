import IdentityLedger.Json.Record
import IdentityLedger.Numeric.Binary64
import IdentityLedger.Text.Digits

/-!
# Durations

A duration is a 64-bit number of seconds and a part of a second in nanoseconds.
-/
namespace IdentityLedger

def Duration.nanosPerSecond : Nat := 1000000000

structure Duration where
  secs : Nat
  nanos : Nat
  secs_lt : secs < UInt64.size
  nanos_lt : nanos < Duration.nanosPerSecond
  deriving DecidableEq

namespace Duration

/-- Whole seconds in the nanoseconds are carried over; none past the largest duration. -/
def ofParts? (secs nanos : Nat) : Option Duration :=
  if h : secs + nanos / nanosPerSecond < UInt64.size then
    some ⟨secs + nanos / nanosPerSecond, nanos % nanosPerSecond, h, Nat.mod_lt _ (by decide)⟩
  else none

def zero : Duration := ⟨0, 0, by decide, by decide⟩

def ofMillis (millis : Nat) (h : millis < UInt64.size) : Duration :=
  ⟨millis / 1000, millis % 1000 * 1000000, by omega, by unfold nanosPerSecond; omega⟩

def totalNanos (d : Duration) : Nat := d.secs * nanosPerSecond + d.nanos

def millis (d : Duration) : Nat := d.totalNanos / 1000000

/-- The seconds as a double: whole seconds plus the part of a second, each rounded. -/
def seconds (d : Duration) : Float :=
  (UInt64.ofNat d.secs).toFloat + (UInt64.ofNat d.nanos).toFloat / 1e9

/-- The duration nearest to a non-negative number of seconds, ties to an even number of
nanoseconds; none past the largest duration. -/
def ofSeconds? (seconds : Float) : Option Duration :=
  match Numeric.magnitude? seconds with
  | none => none
  | some m => ofParts? 0 (m.roundTimes nanosPerSecond)

/-- A number with the significant ones of its decimals, out of `places`. -/
def withDecimals (whole part places : Nat) : List Char :=
  let decimals := ((Text.fixedDigits places part).reverse.dropWhile (· == '0')).reverse
  Text.decimal whole ++ if decimals = [] then [] else '.' :: decimals

/-- A duration in the largest unit of which it has at least one. -/
def text (d : Duration) : String :=
  if d.secs > 0 then String.ofList (withDecimals d.secs d.nanos 9) ++ "s"
  else if d.nanos ≥ 1000000 then
    String.ofList (withDecimals (d.nanos / 1000000) (d.nanos % 1000000) 6) ++ "ms"
  else if d.nanos ≥ 1000 then
    String.ofList (withDecimals (d.nanos / 1000) (d.nanos % 1000) 3) ++ "µs"
  else toString d.nanos ++ "ns"

def toJson (d : Duration) : Json := .obj [("secs", .nat d.secs), ("nanos", .nat d.nanos)]

def ofJson? (json : Json) : Option Duration := do
  let r ← Json.Record.ofJson? 2 json
  match r with
  | .named members => if members.all fun (name, _) => name == "secs" || name == "nanos" then some () else none
  | .positional _ => some ()
  let secs ← r.required? 0 "secs" Json.count64?
  let nanos ← r.required? 1 "nanos" Json.count32?
  ofParts? secs nanos

end Duration

end IdentityLedger
