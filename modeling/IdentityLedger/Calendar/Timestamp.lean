import IdentityLedger.Calendar.Date

/-!
# Points in time

A timestamp is a date and a time of day in UTC, to the nanosecond. Where clocks insert a
second, it is counted into the second before it, whose fraction then runs on to two seconds.
So may the fraction of any other second: clocks insert none there, but the time can be set.
-/
namespace IdentityLedger

@[ext]
structure TimeOfDay where
  hour : Nat
  minute : Nat
  second : Nat
  nano : Nat
  hour_lt : hour < 24
  minute_lt : minute < 60
  second_lt : second < 60
  nano_lt : nano < 2000000000
  deriving DecidableEq

namespace TimeOfDay

/-- The fraction has run on past its second. -/
def Overruns (t : TimeOfDay) : Prop := 1000000000 ≤ t.nano

instance (t : TimeOfDay) : Decidable t.Overruns := inferInstanceAs (Decidable (_ ≤ _))

def clockSecond (t : TimeOfDay) : Nat := if t.Overruns then t.second + 1 else t.second

def clockNano (t : TimeOfDay) : Nat := if t.Overruns then t.nano - 1000000000 else t.nano

/-- The time that a clock shows, where the sixtieth second is an inserted one. -/
def ofClock? (hour minute second nano : Nat) : Option TimeOfDay :=
  if h : hour < 24 ∧ minute < 60 ∧ second ≤ 60 ∧ nano < 1000000000 then
    some {
      hour
      minute
      second := min second 59
      nano := if second = 60 then nano + 1000000000 else nano
      hour_lt := h.1
      minute_lt := h.2.1
      second_lt := by omega
      nano_lt := by split <;> omega }
  else none

/-- The same second in the minute with a number of its own in the day. -/
def atMinute (t : TimeOfDay) (inDay : Nat) : TimeOfDay :=
  { t with
    hour := inDay / 60 % 24
    minute := inDay % 60
    hour_lt := Nat.mod_lt _ (by decide)
    minute_lt := Nat.mod_lt _ (by decide) }

end TimeOfDay

def minYear : Int := -262143

def maxYear : Int := 262142

def Date.inRange (d : Date) : Prop := minYear ≤ d.year ∧ d.year ≤ maxYear

instance (d : Date) : Decidable d.inRange := inferInstanceAs (Decidable (_ ∧ _))

structure Timestamp where
  date : Date
  time : TimeOfDay
  inRange : date.inRange
  deriving DecidableEq

namespace Timestamp

def ofParts? (date : Date) (time : TimeOfDay) : Option Timestamp :=
  if h : date.inRange then some ⟨date, time, h⟩ else none

/-- The UTC time of a local time that is `offset` minutes ahead, with the days it is off
by. The offset is less than a day either way, so this is at most one day. -/
def utcMinutes (time : TimeOfDay) (offset : Int) : Int :=
  (time.hour : Int) * 60 + time.minute - offset

/-- Converts a local time that is `offset` minutes ahead of UTC; both the local and
the UTC date must be in range. -/
def ofLocal? (date : Date) (time : TimeOfDay) (offset : Int) : Option Timestamp :=
  if date.inRange then
    let minutes := utcMinutes time offset
    let day := if minutes < 0 then date.previous else if 1440 ≤ minutes then date.next else date
    ofParts? day (time.atMinute (minutes % 1440).toNat)
  else none

end Timestamp

end IdentityLedger
