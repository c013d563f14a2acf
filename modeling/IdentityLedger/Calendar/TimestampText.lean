import IdentityLedger.Calendar.Timestamp
import IdentityLedger.Text.Digits

/-!
# Timestamps as text

Timestamps are written in UTC with `T` and `Z`, as a clock shows them, and with the fewest
of 0, 3, 6 or 9 fractional digits that are exact. They are read in a wider form: blanks
before numbers and separators, one-digit fields, any offset below a day, and a lower
case or blank separator between date and time. Reading goes from left to right, so that
the fault of a text is the first one; dates are looked at last.
-/
namespace IdentityLedger.Timestamp
open Text

/-- Four digits for the years 0 to 9999, else a sign and at least four digits. -/
def yearChars (year : Int) : List Char :=
  if 0 ≤ year ∧ year ≤ 9999 then fixedDigits 4 year.toNat
  else (if year < 0 then '-' else '+') :: padded 4 year.natAbs

def fractionChars (nano : Nat) : List Char :=
  if nano = 0 then []
  else if nano % 1000000 = 0 then '.' :: fixedDigits 3 (nano / 1000000)
  else if nano % 1000 = 0 then '.' :: fixedDigits 6 (nano / 1000)
  else '.' :: fixedDigits 9 nano

def chars (t : Timestamp) : List Char :=
  yearChars t.date.year ++ '-' :: fixedDigits 2 t.date.month ++ '-' :: fixedDigits 2 t.date.day ++
    'T' :: fixedDigits 2 t.time.hour ++ ':' :: fixedDigits 2 t.time.minute ++
    ':' :: fixedDigits 2 t.time.clockSecond ++ fractionChars t.time.clockNano ++ ['Z']

def text (t : Timestamp) : String := String.ofList t.chars

inductive Fault where
  /-- A number that cannot stand where it does, or a date that does not exist. -/
  | outOfRange
  /-- A time that has no equal in UTC among the timestamps. -/
  | impossible
  | invalid
  | tooShort
  | tooLong
  deriving DecidableEq

def Fault.message : Fault → String
  | outOfRange => "input is out of range"
  | impossible => "no possible date and time matching input"
  | invalid => "input contains invalid characters"
  | tooShort => "premature end of input"
  | tooLong => "trailing input"

def Fault.atFront (text : List Char) : Fault := if text = [] then tooShort else invalid

def numeral (text digits rest : List Char) : Except Fault (Nat × List Char) :=
  if digits = [] then .error (.atFront text) else .ok (ofDigits digits, rest)

/-- A number of one to `limit` digits, after blanks. -/
def number (limit : Nat) (text : List Char) : Except Fault (Nat × List Char) :=
  let text := skipBlanks text
  let (digits, rest) := splitDigits limit text
  numeral text digits rest

def longNumber (text : List Char) : Except Fault (Nat × List Char) :=
  let (digits, rest) := text.span isDigit
  numeral text digits rest

def numberIn (least greatest : Nat) (text : List Char) : Except Fault (Nat × List Char) := do
  let (n, text) ← number 2 text
  if least ≤ n ∧ n ≤ greatest then .ok (n, text) else .error .outOfRange

/-- A signed year of any length, or an unsigned one of at most four digits. It must fit
32 bits. -/
def year (text : List Char) : Except Fault (Int × List Char) := do
  let (n, text) : Int × List Char ← match skipBlanks text with
    | '-' :: text => (longNumber text).map fun (n, text) => (-(n : Int), text)
    | '+' :: text => (longNumber text).map fun (n, text) => ((n : Int), text)
    | text => (number 4 text).map fun (n, text) => ((n : Int), text)
  if -2147483648 ≤ n ∧ n ≤ 2147483647 then .ok (n, text) else .error .outOfRange

def oneOf (allowed : List Char) (text : List Char) : Except Fault (List Char) :=
  match text with
  | c :: rest => if c ∈ allowed then .ok rest else .error .invalid
  | [] => .error .tooShort

def separator (c : Char) (text : List Char) : Except Fault (List Char) :=
  oneOf [c] (skipBlanks text)

/-- Fractional digits in nanoseconds; those after the ninth are dropped. -/
def fraction (text : List Char) : Except Fault (Nat × List Char) :=
  match text with
  | '.' :: text => do
    let (digits, rest) := text.span isDigit
    let kept := digits.take 9
    let (n, rest) ← numeral text kept rest
    .ok (n * Nat.pow 10 (9 - kept.length), rest)
  | text => .ok (0, text)

/-- A number of two digits. A lone character is a digit too few if it is ASCII. -/
def twoDigits (text : List Char) : Except Fault (Nat × List Char) :=
  match text with
  | a :: b :: rest =>
    if isDigit a ∧ isDigit b then .ok (10 * digitValue a + digitValue b, rest) else .error .invalid
  | [c] => .error (if c.utf8Size = 1 then .tooShort else .invalid)
  | [] => .error .tooShort

def offsetMinutes (text : List Char) : Except Fault (Nat × List Char) := do
  let (hours, text) ← twoDigits text
  let (minutes, text) ← twoDigits (text.dropWhile fun c => c == ':' || isBlank c)
  if minutes < 60 then .ok (hours * 60 + minutes, text) else .error .outOfRange

/-- An offset in minutes ahead of UTC, after blanks: `Z`, `UTC` in any case, or a signed
time. -/
def offset (text : List Char) : Except Fault (Int × List Char) :=
  let text := skipBlanks text
  if (text.take 3).map Char.toLower = ['u', 't', 'c'] then .ok (0, text.drop 3)
  else
    match text with
    | c :: rest =>
      if c = 'Z' ∨ c = 'z' then .ok (0, rest)
      else if c = '+' then (offsetMinutes rest).map fun (n, text) => ((n : Int), text)
      else if c = '-' ∨ c = '\u2212' then
        (offsetMinutes rest).map fun (n, text) => (-(n : Int), text)
      else .error .invalid
    | [] => .error .tooShort

def ofCivil (year : Int) (month day hour minute second nano : Nat) (offset : Int) :
    Except Fault Timestamp :=
  match Date.ofCivil? year month day, TimeOfDay.ofClock? hour minute second nano with
  | some date, some time =>
    if date.inRange ∧ offset.natAbs < 1440 then
      match ofLocal? date time offset with
      | some timestamp => .ok timestamp
      | none => .error .impossible
    else .error .outOfRange
  | _, _ => .error .outOfRange

def read (text : List Char) : Except Fault Timestamp := do
  let (year, text) ← year text
  let text ← separator '-' text
  let (month, text) ← numberIn 1 12 text
  let text ← separator '-' text
  let (day, text) ← numberIn 1 31 text
  let text ← oneOf ['T', 't', ' '] text
  let (hour, text) ← numberIn 0 23 text
  let text ← separator ':' text
  let (minute, text) ← numberIn 0 59 text
  let text ← separator ':' text
  let (second, text) ← numberIn 0 60 text
  let (nano, text) ← fraction text
  let (offset, text) ← offset text
  if skipBlanks text = [] then ofCivil year month day hour minute second nano offset
  else .error .tooLong

end IdentityLedger.Timestamp
