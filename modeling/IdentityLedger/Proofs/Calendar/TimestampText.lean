import IdentityLedger.Calendar.TimestampText
import IdentityLedger.Proofs.Text.Digits

/-!
# Written timestamps read back

Reading goes from left to right, so there is one lemma for each part of a written
timestamp: the part is taken off the front, and what follows is left for the next
reader. A fraction is written with as few digits as are exact, and reads back to the
same nanoseconds.

A clock shows a fraction that has run past its second as the next second. That is read as
it was only at the end of a minute, where clocks insert a second; any other such time is
stray, and reads back as the time that was shown.
-/
namespace IdentityLedger

namespace TimeOfDay

/-- The fraction runs past a second after which clocks insert none. -/
def IsStray (t : TimeOfDay) : Prop := t.Overruns ∧ t.second ≠ 59

instance (t : TimeOfDay) : Decidable t.IsStray := inferInstanceAs (Decidable (_ ∧ _))

/-- The time that is read where this one is shown. -/
def asRead (t : TimeOfDay) : TimeOfDay :=
  if h : t.IsStray then
    { t with
      second := t.second + 1
      nano := t.nano - 1000000000
      second_lt := by have := t.second_lt; have := h.2; omega
      nano_lt := by have := t.nano_lt; omega }
  else t

theorem asRead_eq_self {t : TimeOfDay} (h : ¬ t.IsStray) : t.asRead = t := dif_neg h

theorem not_isStray_asRead (t : TimeOfDay) : ¬ t.asRead.IsStray := by
  have := t.nano_lt
  rw [asRead]
  split
  · rintro ⟨hover, _⟩
    simp only [Overruns] at hover
    omega
  · assumption

theorem clockSecond_le (t : TimeOfDay) : t.clockSecond ≤ 60 := by
  have := t.second_lt
  unfold clockSecond
  split <;> omega

theorem clockNano_lt (t : TimeOfDay) : t.clockNano < 1000000000 := by
  have := t.nano_lt
  by_cases hover : t.Overruns
  · rw [clockNano, if_pos hover]
    omega
  · rw [clockNano, if_neg hover]
    exact Nat.lt_of_not_le hover

/-- What is shown does not tell a stray time from the next second. -/
theorem clock_asRead (t : TimeOfDay) : t.asRead.hour = t.hour ∧ t.asRead.minute = t.minute ∧
    t.asRead.clockSecond = t.clockSecond ∧ t.asRead.clockNano = t.clockNano := by
  have := t.nano_lt
  by_cases h : t.IsStray
  · have hover : 1000000000 ≤ t.nano := h.1
    have hnext : ¬ 1000000000 ≤ t.nano - 1000000000 := by omega
    simp [asRead, h, clockSecond, clockNano, Overruns, hover, hnext]
  · simp [asRead_eq_self h]

theorem ofClock?_clock (t : TimeOfDay) :
    ofClock? t.hour t.minute t.clockSecond t.clockNano = some t.asRead := by
  have hsecond := t.second_lt
  rw [ofClock?, dif_pos ⟨t.hour_lt, t.minute_lt, t.clockSecond_le, t.clockNano_lt⟩, Option.some_inj]
  by_cases hover : t.Overruns
  · have hnano : 1000000000 ≤ t.nano := hover
    by_cases hlast : t.second = 59
    · rw [asRead_eq_self fun h => h.2 hlast]
      ext <;> simp [clockSecond, clockNano, hover, hlast]
      omega
    · rw [asRead, dif_pos ⟨hover, hlast⟩]
      ext <;> simp [clockSecond, clockNano, hover] <;> omega
  · rw [asRead_eq_self fun h => hover h.1]
    ext <;> simp [clockSecond, clockNano, hover] <;> omega

theorem atMinute_self (t : TimeOfDay) : t.atMinute (t.hour * 60 + t.minute) = t := by
  have hhour := t.hour_lt
  have hminute := t.minute_lt
  ext <;> simp only [atMinute] <;> omega

end TimeOfDay

namespace Timestamp
open Text

/-- The rest of a text does not continue a number. -/
def EndsNumber (rest : List Char) : Prop := ∀ c ∈ rest.head?, isDigit c = false

theorem number_fixedDigits {limit width n : Nat} {rest : List Char} (hwidth : width ≠ 0)
    (hlimit : width ≤ limit) (hn : n < 10 ^ width) (hrest : EndsNumber rest) :
    number limit (fixedDigits width n ++ rest) = .ok (n, rest) := by
  have hsplit : splitDigits limit (fixedDigits width n ++ rest) = (fixedDigits width n, rest) :=
    splitDigits_append (fun _ => isDigit_of_mem_fixedDigits)
      (by rw [length_fixedDigits]; exact hlimit) hrest
  rw [number, skipBlanks_fixedDigits_append hwidth, hsplit]
  simp [numeral, fixedDigits_ne_nil hwidth, ofDigits_fixedDigits_of_lt hn]

theorem numberIn_fixedDigits {least greatest n : Nat} {rest : List Char} (hleast : least ≤ n)
    (hgreatest : n ≤ greatest) (hn : n < 100) (hrest : EndsNumber rest) :
    numberIn least greatest (fixedDigits 2 n ++ rest) = .ok (n, rest) := by
  rw [numberIn, number_fixedDigits (by decide) (by decide) (by omega) hrest]
  simp [bind, Except.bind, hleast, hgreatest]

theorem longNumber_fixedDigits {width n : Nat} {rest : List Char} (hwidth : width ≠ 0)
    (hn : n < 10 ^ width) (hrest : EndsNumber rest) :
    longNumber (fixedDigits width n ++ rest) = .ok (n, rest) := by
  rw [longNumber, span_isDigit_append (fun _ => isDigit_of_mem_fixedDigits) hrest]
  simp [numeral, fixedDigits_ne_nil hwidth, ofDigits_fixedDigits_of_lt hn]

theorem longNumber_padded (width n : Nat) {rest : List Char} (hrest : EndsNumber rest) :
    longNumber (padded width n ++ rest) = .ok (n, rest) := by
  have hcount : digitCount n ≠ 0 := by
    unfold digitCount
    split <;> omega
  have hn : n < 10 ^ max width (digitCount n) :=
    Nat.lt_of_lt_of_le (lt_pow_digitCount n)
      (Nat.pow_le_pow_right (by decide) (Nat.le_max_right _ _))
  exact longNumber_fixedDigits (by omega) hn hrest

theorem year_yearChars {n : Int} {rest : List Char} (hmin : minYear ≤ n) (hmax : n ≤ maxYear)
    (hrest : EndsNumber rest) : year (yearChars n ++ rest) = .ok (n, rest) := by
  simp only [minYear, maxYear] at hmin hmax
  have hfits : -2147483648 ≤ n ∧ n ≤ 2147483647 := by omega
  by_cases hplain : 0 ≤ n ∧ n ≤ 9999
  · have hnumber : number 4 (fixedDigits 4 n.toNat ++ rest) = .ok (n.toNat, rest) :=
      number_fixedDigits (by decide) (by decide) (by omega) hrest
    obtain ⟨c, digits, hdigits⟩ := List.exists_cons_of_ne_nil
      (fixedDigits_ne_nil (by decide : 4 ≠ 0) n.toNat)
    have hc : isDigit c = true := isDigit_of_mem_fixedDigits (by rw [hdigits]; exact List.mem_cons_self)
    have hcast : ((n.toNat : Nat) : Int) = n := Int.toNat_of_nonneg hplain.1
    rw [yearChars, if_pos hplain, year, skipBlanks_fixedDigits_append (by decide)]
    -- The first character is a digit, hence no sign.
    rw [hdigits, List.cons_append] at hnumber ⊢
    split
    · rename_i heq
      obtain rfl : c = '-' := (List.cons.inj heq).1
      exact absurd hc (by decide)
    · rename_i heq
      obtain rfl : c = '+' := (List.cons.inj heq).1
      exact absurd hc (by decide)
    · simp [hnumber, bind, Except.bind, Except.map, hcast, hfits]
  · have hlong := longNumber_padded 4 n.natAbs hrest
    rw [yearChars, if_neg hplain, year, List.cons_append]
    by_cases hneg : n < 0
    · have hcast : -((n.natAbs : Nat) : Int) = n := by omega
      generalize n.natAbs = years at hcast hlong ⊢
      simp [hneg, skipBlanks, show isBlank '-' = false by decide, hlong, bind, Except.bind,
        Except.map, hcast, hfits]
    · have hcast : ((n.natAbs : Nat) : Int) = n := by omega
      generalize n.natAbs = years at hcast hlong ⊢
      simp [hneg, skipBlanks, show isBlank '+' = false by decide, hlong, bind, Except.bind,
        Except.map, hcast, hfits]

theorem separator_cons {c : Char} (hc : isBlank c = false) (rest : List Char) :
    separator c (c :: rest) = .ok rest := by
  simp [separator, skipBlanks, hc, oneOf]

theorem fraction_fixedDigits {width n : Nat} {rest : List Char} (hwidth : width ≠ 0)
    (hnine : width ≤ 9) (hn : n < 10 ^ width) (hrest : EndsNumber rest) :
    fraction ('.' :: (fixedDigits width n ++ rest)) = .ok (n * 10 ^ (9 - width), rest) := by
  have hspan : (fixedDigits width n ++ rest).span isDigit = (fixedDigits width n, rest) :=
    span_isDigit_append (fun _ => isDigit_of_mem_fixedDigits) hrest
  have htake : (fixedDigits width n).take 9 = fixedDigits width n :=
    List.take_of_length_le (by rw [length_fixedDigits]; exact hnine)
  simp only [fraction]
  rw [hspan]
  simp [htake, numeral, fixedDigits_ne_nil hwidth, ofDigits_fixedDigits_of_lt hn,
    length_fixedDigits, bind, Except.bind]

theorem fraction_fractionChars {nano : Nat} (hnano : nano < 1000000000) :
    fraction (fractionChars nano ++ ['Z']) = .ok (nano, ['Z']) := by
  have hz : EndsNumber ['Z'] := by simp [EndsNumber, show isDigit 'Z' = false by decide]
  unfold fractionChars
  split_ifs with hzero hmillis hmicros
  · subst hzero
    rfl
  · rw [List.cons_append, fraction_fixedDigits (by decide) (by decide) (by omega) hz]
    rw [show nano / 1000000 * 10 ^ (9 - 3) = nano by omega]
  · rw [List.cons_append, fraction_fixedDigits (by decide) (by decide) (by omega) hz]
    rw [show nano / 1000 * 10 ^ (9 - 6) = nano by omega]
  · rw [List.cons_append, fraction_fixedDigits (by decide) (by decide) hnano hz]
    simp

/-- A fraction, and the zone after it, do not continue the seconds. -/
theorem endsNumber_fractionChars (nano : Nat) : EndsNumber (fractionChars nano ++ ['Z']) := by
  unfold fractionChars EndsNumber
  split_ifs <;> simp <;> decide

theorem ofLocal?_utc (date : Date) (time : TimeOfDay) : ofLocal? date time 0 = ofParts? date time := by
  have hhour := time.hour_lt
  have hminute := time.minute_lt
  have hlow : ¬ ((time.hour : Int) * 60 + time.minute - 0 < 0) := by omega
  have hhigh : ¬ (1440 ≤ (time.hour : Int) * 60 + time.minute - 0) := by omega
  have hday : (((time.hour : Int) * 60 + time.minute - 0) % 1440).toNat =
      time.hour * 60 + time.minute := by omega
  by_cases hrange : date.inRange
  · simp only [ofLocal?, utcMinutes, hrange, if_true, hlow, hhigh, if_false, hday,
      TimeOfDay.atMinute_self]
  · rw [ofLocal?, if_neg hrange, ofParts?, dif_neg hrange]

def IsStray (t : Timestamp) : Prop := t.time.IsStray

instance (t : Timestamp) : Decidable t.IsStray := inferInstanceAs (Decidable t.time.IsStray)

def asRead (t : Timestamp) : Timestamp := { t with time := t.time.asRead }

theorem not_isStray_asRead (t : Timestamp) : ¬ t.asRead.IsStray := t.time.not_isStray_asRead

theorem asRead_eq_self_iff {t : Timestamp} : t.asRead = t ↔ ¬ t.IsStray := by
  refine ⟨fun h => h ▸ t.not_isStray_asRead, fun h => ?_⟩
  rw [asRead, TimeOfDay.asRead_eq_self h]

/-- Twenty seconds past a minute, with a fraction of one and a third seconds. -/
def stray : Timestamp :=
  ⟨⟨2023, 11, 14, by decide, by decide⟩,
    ⟨22, 13, 20, 1333333333, by decide, by decide, by decide, by decide⟩, by decide⟩

example : stray.IsStray := by decide

theorem chars_asRead (t : Timestamp) : t.asRead.chars = t.chars := by
  obtain ⟨hhour, hminute, hsecond, hnano⟩ := t.time.clock_asRead
  rw [chars, chars, asRead, hhour, hminute, hsecond, hnano]

theorem ofCivil_clock (t : Timestamp) :
    ofCivil t.date.year t.date.month t.date.day t.time.hour t.time.minute t.time.clockSecond
      t.time.clockNano 0 = .ok t.asRead := by
  simp [ofCivil, Date.ofCivil?_self, TimeOfDay.ofClock?_clock, t.inRange, ofLocal?_utc, ofParts?, asRead]

/-- What is written for a timestamp is read as that timestamp, unless its time is stray. -/
theorem read_chars (t : Timestamp) : read t.chars = .ok t.asRead := by
  have ends (c : Char) (hc : isDigit c = false) (rest : List Char) : EndsNumber (c :: rest) := by
    simp [EndsNumber, hc]
  have hyear (rest) : year (yearChars t.date.year ++ '-' :: rest) = .ok (t.date.year, '-' :: rest) :=
    year_yearChars t.inRange.1 t.inRange.2 (ends '-' (by decide) rest)
  have hmonth (rest) : numberIn 1 12 (fixedDigits 2 t.date.month ++ '-' :: rest) =
      .ok (t.date.month, '-' :: rest) := by
    have := t.date.month_mem
    exact numberIn_fixedDigits this.1 this.2 (by omega) (ends '-' (by decide) rest)
  have hday (rest) : numberIn 1 31 (fixedDigits 2 t.date.day ++ 'T' :: rest) =
      .ok (t.date.day, 'T' :: rest) := by
    have hdays : t.date.day ≤ 31 := Nat.le_trans t.date.day_mem.2 (Date.daysInMonth_le _ _)
    exact numberIn_fixedDigits t.date.day_mem.1 hdays (by omega) (ends 'T' (by decide) rest)
  have hhour (rest) : numberIn 0 23 (fixedDigits 2 t.time.hour ++ ':' :: rest) =
      .ok (t.time.hour, ':' :: rest) := by
    have := t.time.hour_lt
    exact numberIn_fixedDigits (by omega) (by omega) (by omega) (ends ':' (by decide) rest)
  have hminute (rest) : numberIn 0 59 (fixedDigits 2 t.time.minute ++ ':' :: rest) =
      .ok (t.time.minute, ':' :: rest) := by
    have := t.time.minute_lt
    exact numberIn_fixedDigits (by omega) (by omega) (by omega) (ends ':' (by decide) rest)
  have hsecond : numberIn 0 60
      (fixedDigits 2 t.time.clockSecond ++ (fractionChars t.time.clockNano ++ ['Z'])) =
      .ok (t.time.clockSecond, fractionChars t.time.clockNano ++ ['Z']) := by
    have := t.time.clockSecond_le
    exact numberIn_fixedDigits (by omega) this (by omega) (endsNumber_fractionChars _)
  have hzone : offset ['Z'] = .ok (0, []) := rfl
  have hdash (rest) := separator_cons (c := '-') (by decide) rest
  have hcolon (rest) := separator_cons (c := ':') (by decide) rest
  simp only [read, chars, List.append_assoc, List.cons_append, hyear, hmonth, hday, hhour, hminute,
    hsecond, hdash, hcolon, oneOf, List.mem_cons, true_or, if_true, hzone, bind, Except.bind,
    fraction_fractionChars t.time.clockNano_lt]
  exact ofCivil_clock t

end Timestamp

end IdentityLedger
