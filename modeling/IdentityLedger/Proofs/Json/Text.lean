import IdentityLedger.Json.Printer
import IdentityLedger.Json.Reader
import IdentityLedger.Json.Record
import IdentityLedger.Proofs.Text.Digits

/-!
# Written JSON values read back

A value is read from its own text, whatever follows it, as long as that does not continue a
number. Doubles are left out: the reader does not always find the double that was written. So
are integers beyond 64 bits, which are read as doubles, objects that have a name twice, of
which the reader keeps one member, and values that are nested too deep.
-/
namespace IdentityLedger.Json
open Text

/-- The values that are read from their own texts, if lists and objects may be nested so deep. -/
inductive Textual : Json → Nat → Prop
  | null {depth : Nat} : Textual .null depth
  | bool (value : Bool) {depth : Nat} : Textual (.bool value) depth
  | int {value : Int} {depth : Nat} (least : -9223372036854775808 ≤ value)
      (greatest : value ≤ 18446744073709551615) : Textual (.int value) depth
  | str (value : String) {depth : Nat} : Textual (.str value) depth
  | arr {items : List Json} {depth : Nat} (values : ∀ item ∈ items, Textual item depth) :
      Textual (.arr items) (depth + 1)
  | obj {members : List (String × Json)} {depth : Nat} (names : (members.map Prod.fst).Nodup)
      (values : ∀ member ∈ members, Textual member.2 depth) : Textual (.obj members) (depth + 1)

namespace Textual
variable {depth : Nat} {content : Json}

theorem nat {n : Nat} (h : n < 2 ^ 64) : Textual (.nat n) depth := .int (by omega) (by omega)

theorem variant (name : String) (h : content.Textual depth) :
    (variant name content).Textual (depth + 1) := .obj (by simp) (by simpa using h)

theorem option {α : Type} {encode : α → Json} (h : ∀ a, (encode a).Textual depth) (value : Option α) :
    (Json.option encode value).Textual depth := by
  cases value with
  | none => exact .null
  | some a => exact h a

end Textual

/-! ## Strings -/

theorem exists_escapeChar (c : Char) : ∃ d rest, escapeChar c = d :: rest ∧ d ≠ '"' := by
  unfold escapeChar
  split_ifs with hquote
  · exact ⟨_, _, rfl, by decide⟩
  · exact ⟨_, _, rfl, by decide⟩
  · exact ⟨_, _, rfl, by decide⟩
  · exact ⟨_, _, rfl, hquote⟩

theorem unit16?_hexDigits {n : Nat} (hn : n < 16 ^ 4) (rest : List Char) :
    unit16? (hexDigits 4 n ++ rest) = some (n, rest) := by
  have hlength := length_hexDigits 4 n
  have hlong : ¬ (hexDigits 4 n ++ rest).length < 4 := by
    rw [List.length_append, hlength]
    omega
  have hread : ofHex? (hexDigits 4 n) = some n := by
    rw [ofHex?_hexDigits, Nat.mod_eq_of_lt hn]
  rw [unit16?, if_neg hlong, List.take_left' hlength, List.drop_left' hlength, hread]
  rfl

theorem stringChar?_escapeChar (c : Char) (rest : List Char) :
    stringChar? (escapeChar c ++ rest) = some (c, rest) := by
  unfold escapeChar
  split_ifs with hquote hslash hcontrol
  · rw [hquote]
    rfl
  · rw [hslash]
    rfl
  · have hunit : unit16? (hexDigits 4 c.toNat ++ rest) = some (c.toNat, rest) :=
      unit16?_hexDigits (by omega) rest
    have hlow : ¬ (0xD800 ≤ c.toNat ∧ c.toNat < 0xDC00) := by omega
    have hhigh : ¬ (0xDC00 ≤ c.toNat ∧ c.toNat < 0xE000) := by omega
    simp [stringChar?, escapedUnit?, hunit, hlow, hhigh, Char.ofNat_toNat]
  · rw [List.singleton_append, stringChar?.eq_def]
    split <;> simp_all

theorem length_le_flatMap_escapeChar (cs : List Char) : cs.length ≤ (cs.flatMap escapeChar).length := by
  induction cs with
  | nil => exact Nat.le_refl 0
  | cons c cs ih =>
    obtain ⟨d, rest, hescape, _⟩ := exists_escapeChar c
    rw [List.flatMap_cons, List.length_append, hescape, List.length_cons, List.length_cons]
    omega

theorem stringBody?_escaped {cs : List Char} {rounds : Nat} (hrounds : cs.length < rounds)
    (done rest : List Char) : stringBody? rounds done (cs.flatMap escapeChar ++ '"' :: rest) =
      some (String.ofList (done.reverse ++ cs), rest) := by
  induction cs generalizing rounds done with
  | nil =>
    obtain ⟨rounds, rfl⟩ := Nat.exists_eq_succ_of_ne_zero (Nat.ne_of_gt hrounds)
    simp [stringBody?]
  | cons c cs ih =>
    obtain ⟨rounds, rfl⟩ := Nat.exists_eq_succ_of_ne_zero (Nat.ne_of_gt (Nat.zero_lt_of_lt hrounds))
    have hchar := stringChar?_escapeChar c (cs.flatMap escapeChar ++ '"' :: rest)
    obtain ⟨d, escape, hescape, hd⟩ := exists_escapeChar c
    rw [List.flatMap_cons, List.append_assoc]
    rw [hescape, List.cons_append] at hchar ⊢
    have hstep : stringBody? (rounds + 1) done (d :: (escape ++ (cs.flatMap escapeChar ++ '"' :: rest))) =
        stringBody? rounds (c :: done) (cs.flatMap escapeChar ++ '"' :: rest) := by
      rw [stringBody?.eq_def]
      split
      · contradiction
      · simp_all
      · simp_all
    rw [hstep, ih (Nat.lt_of_succ_lt_succ hrounds)]
    simp

theorem toList_quote (s : String) :
    (quote s).toList = '"' :: (s.toList.flatMap escapeChar ++ ['"']) := by
  simp [quote]

theorem stringBody?_quote (s : String) (rest : List Char) :
    let text := s.toList.flatMap escapeChar ++ '"' :: rest
    stringBody? (text.length + 1) [] text = some (s, rest) := by
  intro text
  have hrounds : s.toList.length < text.length + 1 := by
    have := length_le_flatMap_escapeChar s.toList
    rw [List.length_append]
    omega
  rw [stringBody?_escaped hrounds]
  simp

/-! ## Integers -/

/-- What follows a value does not continue a number. -/
def Stops (rest : List Char) : Prop := ∀ c ∈ rest.head?, c = ',' ∨ c = ']' ∨ c = '\x7d'

theorem stops_nil : Stops [] := nofun

theorem Stops.not_isDigit {rest : List Char} (h : Stops rest) :
    ∀ c ∈ rest.head?, isDigit c = false := by
  intro c hc
  rcases h c hc with rfl | rfl | rfl <;> rfl

theorem isDigit_of_mem_toDigits {n : Nat} {c : Char} (h : c ∈ Nat.toDigits 10 n) :
    isDigit c = true := Nat.isDigit_of_mem_toDigits (by decide) (by decide) h

theorem exists_toDigits (n : Nat) : ∃ d digits, Nat.toDigits 10 n = d :: digits ∧ isDigit d = true := by
  obtain ⟨d, digits, hdigits⟩ :=
    List.exists_cons_of_ne_nil (Nat.toDigits_ne_nil : Nat.toDigits 10 n ≠ [])
  exact ⟨d, digits, hdigits, isDigit_of_mem_toDigits (hdigits ▸ List.mem_cons_self)⟩

theorem ofDigits_toDigits (n : Nat) : ofDigits (Nat.toDigits 10 n) = n := by
  have h : Nat.ofDigitChars 10 (Nat.toDigits 10 n) 0 = n := Nat.ofDigitChars_ten_toDigits
  rw [Nat.ofDigitChars_eq_foldl] at h
  exact h

/-- No numeral of two digits or more begins with a zero. -/
theorem head?_toDigits {n : Nat} (h : 0 < n) : (Nat.toDigits 10 n).head? ≠ some '0' := by
  induction n using Nat.strongRecOn with
  | _ n ih =>
    rw [Nat.toDigits_eq_if (by decide)]
    split
    · rename_i hsmall
      have hdigit : ∀ d : Fin 10, 0 < d.val → d.val.digitChar ≠ '0' := by decide
      simpa using hdigit ⟨n, hsmall⟩ h
    · have hfront := ih (n / 10) (by omega) (by omega)
      obtain ⟨c, front, hdigits, _⟩ := exists_toDigits (n / 10)
      rw [hdigits] at hfront ⊢
      exact hfront

theorem not_leadingZero (n : Nat) : ¬(Nat.toDigits 10 n = [] ∨
    (Nat.toDigits 10 n).head? = some '0' ∧ (Nat.toDigits 10 n).length ≠ 1) := by
  rintro (hnil | ⟨hzero, hlong⟩)
  · exact Nat.toDigits_ne_nil hnil
  · rcases Nat.eq_zero_or_pos n with rfl | hpos
    · exact hlong rfl
    · exact head?_toDigits hpos hzero

theorem Stops.readFraction?_eq {rest : List Char} (h : Stops rest) :
    Numeral.readFraction? rest = some (none, rest) := by
  unfold Numeral.readFraction?
  split
  · exact absurd (h '.' rfl) (by decide)
  · rfl

theorem Stops.readExponent?_eq {rest : List Char} (h : Stops rest) :
    Numeral.readExponent? rest = some (none, rest) := by
  cases rest with
  | nil => rfl
  | cons c rest =>
    refine if_neg ?_
    rintro (rfl | rfl) <;> exact absurd (h _ rfl) (by decide)

theorem readSign_toDigits (negative : Bool) (n : Nat) (rest : List Char) :
    Numeral.readSign ((if negative then ['-'] else []) ++ (Nat.toDigits 10 n ++ rest)) =
      (negative, Nat.toDigits 10 n ++ rest) := by
  obtain ⟨d, digits, hdigits, hd⟩ := exists_toDigits n
  cases negative
  · change Numeral.readSign (Nat.toDigits 10 n ++ rest) = _
    rw [hdigits, List.cons_append, Numeral.readSign]
    rintro rest' heq
    obtain rfl : d = '-' := (List.cons.inj heq).1
    contradiction
  · rfl

theorem read?_toDigits (negative : Bool) (n : Nat) {rest : List Char} (hrest : Stops rest) :
    Numeral.read? ((if negative then ['-'] else []) ++ (Nat.toDigits 10 n ++ rest)) =
      some (⟨negative, Nat.toDigits 10 n, none, none⟩, rest) := by
  have hspan : (Nat.toDigits 10 n ++ rest).span isDigit = (Nat.toDigits 10 n, rest) :=
    span_isDigit_append (fun _ => isDigit_of_mem_toDigits) hrest.not_isDigit
  simp only [Numeral.read?, readSign_toDigits, hspan, if_neg (not_leadingZero n),
    hrest.readFraction?_eq, hrest.readExponent?_eq, Option.bind_eq_bind, Option.bind_some]
  rfl

theorem value?_int {negative : Bool} {n : Nat}
    (hn : if negative then 0 < n ∧ n ≤ 9223372036854775808 else n ≤ 18446744073709551615) :
    Numeral.value? ⟨negative, Nat.toDigits 10 n, none, none⟩ =
      some (.int (if negative then -(n : Int) else n)) := by
  rw [Numeral.value?, ofDigits_toDigits]
  exact if_pos ⟨rfl, rfl, hn⟩

/-! ## Values -/

theorem skipSpaces_cons {c : Char} (hc : isSpace c = false) (rest : List Char) :
    skipSpaces (c :: rest) = c :: rest := by
  rw [skipSpaces, List.dropWhile_cons, hc]
  rfl

/-- What an integer begins with: its sign or a digit. -/
def BeginsNumeral (c : Char) : Prop := c = '-' ∨ isDigit c = true

theorem BeginsNumeral.ne {c d : Char} (h : BeginsNumeral c)
    (hd : d ≠ '-' ∧ isDigit d = false) : c ≠ d := by
  rintro rfl
  exact h.elim hd.1 fun hdigit => absurd (hdigit.symm.trans hd.2) nofun

theorem BeginsNumeral.isSpace_eq {c : Char} (h : BeginsNumeral c) : isSpace c = false := by
  simp [isSpace, h.ne (d := ' ') (by decide), h.ne (d := '\t') (by decide),
    h.ne (d := '\n') (by decide), h.ne (d := '\r') (by decide)]

theorem toList_int (value : Int) : (toString value).toList =
    (if decide (value < 0) then ['-'] else []) ++ Nat.toDigits 10 value.natAbs := by
  change value.repr.toList = _
  rw [Int.repr_eq_if]
  by_cases h : 0 ≤ value
  · have hsign : ¬ value < 0 := by omega
    have habs : value.toNat = value.natAbs := by omega
    simp [h, hsign, habs, Nat.repr_eq_ofList_toDigits]
  · have hsign : value < 0 := by omega
    have habs : (-value).toNat = value.natAbs := by omega
    simp [h, hsign, habs, Nat.repr_eq_ofList_toDigits]

theorem exists_int (value : Int) :
    ∃ c rest, (toString value).toList = c :: rest ∧ BeginsNumeral c := by
  rw [toList_int]
  by_cases hsign : value < 0
  · rw [decide_eq_true hsign]
    exact ⟨_, _, rfl, .inl rfl⟩
  · obtain ⟨d, digits, hdigits, hd⟩ := exists_toDigits value.natAbs
    rw [decide_eq_false hsign]
    exact ⟨d, digits, hdigits, .inr hd⟩

theorem value?_numeral {c : Char} (hc : BeginsNumeral c) (rounds depth : Nat) (text : List Char) :
    value? (rounds + 1) depth (c :: text) =
      (Numeral.read? (c :: text)).bind fun (n, rest) => n.value?.map fun v => (v, rest) := by
  rw [value?, skipSpaces_cons hc.isSpace_eq]
  split
  all_goals try rfl
  all_goals
    rename_i heq
    exact absurd (List.cons.inj heq).1 (hc.ne (by decide))

/-- What a value's text begins with is no blank and does not close a list. -/
theorem toList_arr (items : List Json) :
    (text (.arr items)).toList = '[' :: ((itemsText items).toList ++ [']']) := by
  simp [text]

theorem toList_obj (members : List (String × Json)) :
    (text (.obj members)).toList = '\x7b' :: ((membersText members).toList ++ ['\x7d']) := by
  simp [text]

theorem exists_text {j : Json} {depth : Nat} (h : j.Textual depth) :
    ∃ c rest, j.text.toList = c :: rest ∧ isSpace c = false ∧ c ≠ ']' := by
  cases h with
  | null => exact ⟨_, _, rfl, by decide, by decide⟩
  | bool value => cases value <;> exact ⟨_, _, rfl, by decide, by decide⟩
  | @int value depth =>
    obtain ⟨c, rest, htext, hc⟩ := exists_int value
    exact ⟨c, rest, htext, hc.isSpace_eq, hc.ne (by decide)⟩
  | str value => exact ⟨_, _, toList_quote value, by decide, by decide⟩
  | @arr items => exact ⟨_, _, toList_arr items, by decide, by decide⟩
  | @obj members => exact ⟨_, _, toList_obj members, by decide, by decide⟩

/-- A value is read from its text, in rounds that suffice. -/
def Reads (j : Json) (depth : Nat) : Prop :=
  ∀ {rounds rest}, 2 * j.text.toList.length ≤ rounds → Stops rest →
    value? (rounds + 1) depth (j.text.toList ++ rest) = some (j, rest)

theorem read?_int {value : Int} (hleast : -9223372036854775808 ≤ value)
    (hgreatest : value ≤ 18446744073709551615) {rest : List Char} (hrest : Stops rest) :
    ((Numeral.read? ((toString value).toList ++ rest)).bind fun (n, rest) =>
      n.value?.map fun v => (v, rest)) = some (.int value, rest) := by
  have hbounds : if decide (value < 0) then
      0 < value.natAbs ∧ value.natAbs ≤ 9223372036854775808
      else value.natAbs ≤ 18446744073709551615 := by
    by_cases hsign : value < 0
    · rw [if_pos (decide_eq_true hsign)]
      omega
    · rw [if_neg (by simpa using hsign)]
      omega
  have hvalue : (if decide (value < 0) then -(value.natAbs : Int) else value.natAbs) = value := by
    by_cases hsign : value < 0
    · rw [if_pos (decide_eq_true hsign)]
      omega
    · rw [if_neg (by simpa using hsign)]
      omega
  rw [toList_int, List.append_assoc, read?_toDigits _ _ hrest]
  change (Numeral.value? ⟨_, Nat.toDigits 10 value.natAbs, none, none⟩).map _ = _
  rw [value?_int hbounds, hvalue]
  rfl

theorem reads_int {value : Int} (hleast : -9223372036854775808 ≤ value)
    (hgreatest : value ≤ 18446744073709551615) (depth : Nat) : Reads (.int value) depth := by
  intro rounds rest _ hrest
  obtain ⟨c, digits, htext, hc⟩ := exists_int value
  have hread := read?_int hleast hgreatest hrest
  change value? (rounds + 1) depth ((toString value).toList ++ rest) = _
  rw [htext] at hread ⊢
  exact (value?_numeral hc rounds depth _).trans hread

/-! ## Lists and objects -/

theorem value?_quotes (rounds depth : Nat) (text : List Char) : value? (rounds + 1) depth ('"' :: text) =
    (stringBody? (text.length + 1) [] text).map fun (s, rest) => (.str s, rest) := by
  rw [value?, skipSpaces_cons (by decide)]
  rfl

theorem value?_list {c : Char} (hc : isSpace c = false) (hopen : c ≠ ']') (rounds depth : Nat)
    (text : List Char) : value? (rounds + 1) (depth + 1) ('[' :: c :: text) =
      (items? rounds depth [] (c :: text)).map fun (items, rest) => (.arr items, rest) := by
  have hbracket : isSpace '[' = false := by decide
  simp [value?, skipSpaces_cons hbracket, skipSpaces_cons hc, hopen]

theorem items?_last {rounds depth : Nat} {text rest : List Char} {item : Json} (done : List Json)
    (h : value? rounds depth text = some (item, ']' :: rest)) :
    items? (rounds + 1) depth done text = some ((item :: done).reverse, rest) := by
  rw [items?, h]
  rfl

theorem items?_next {rounds depth : Nat} {text rest : List Char} {item : Json} (done : List Json)
    (h : value? rounds depth text = some (item, ',' :: rest)) :
    items? (rounds + 1) depth done text = items? rounds depth (item :: done) rest := by
  rw [items?, h]
  rfl

theorem reads_str (value : String) (depth : Nat) : Reads (.str value) depth := by
  intro rounds rest _ _
  have htext : (text (.str value)).toList = '"' :: (value.toList.flatMap escapeChar ++ ['"']) :=
    toList_quote value
  rw [htext, List.cons_append, List.append_assoc, List.singleton_append, value?_quotes, stringBody?_quote]
  rfl

/-- The items of a list are read up to its end. -/
theorem toList_itemsText_cons (item next : Json) (items : List Json) :
    (itemsText (item :: next :: items)).toList =
      item.text.toList ++ ',' :: (itemsText (next :: items)).toList := by
  simp [itemsText]

theorem items?_itemsText {items : List Json} {depth : Nat} (hitems : items ≠ [])
    (hreads : ∀ item ∈ items, Reads item depth) {rounds : Nat}
    (hrounds : 2 * (itemsText items).toList.length + 2 ≤ rounds) (done : List Json)
    (rest : List Char) : items? rounds depth done ((itemsText items).toList ++ ']' :: rest) =
      some (done.reverse ++ items, rest) := by
  induction items generalizing rounds done with
  | nil => contradiction
  | cons item items ih =>
    obtain ⟨hitem, hreads⟩ := List.forall_mem_cons.mp hreads
    obtain ⟨rounds, rfl⟩ : ∃ r, rounds = r + 2 := ⟨rounds - 2, by omega⟩
    cases items with
    | nil =>
      rw [itemsText] at hrounds ⊢
      rw [items?_last done (hitem (by omega) (by simp [Stops])), List.reverse_cons]
    | cons next items =>
      rw [toList_itemsText_cons, List.length_append, List.length_cons] at hrounds
      rw [toList_itemsText_cons, List.append_assoc, List.cons_append,
        items?_next done (hitem (by omega) (by simp [Stops])),
        ih (List.cons_ne_nil _ _) hreads (by omega)]
      simp

theorem exists_itemsText {items : List Json} {depth : Nat} (hitems : items ≠ [])
    (htextual : ∀ item ∈ items, item.Textual depth) : ∃ c rest,
      (itemsText items).toList = c :: rest ∧ isSpace c = false ∧ c ≠ ']' := by
  obtain ⟨item, items, rfl⟩ := List.exists_cons_of_ne_nil hitems
  obtain ⟨c, rest, htext, hc⟩ := exists_text (htextual item List.mem_cons_self)
  cases items with
  | nil => exact ⟨c, rest, htext, hc⟩
  | cons next items =>
    refine ⟨c, rest ++ ',' :: (itemsText (next :: items)).toList, ?_, hc⟩
    rw [toList_itemsText_cons, htext, List.cons_append]

theorem reads_arr {items : List Json} {depth : Nat} (htextual : ∀ item ∈ items, item.Textual depth)
    (hreads : ∀ item ∈ items, Reads item depth) : Reads (.arr items) (depth + 1) := by
  intro rounds rest hrounds hrest
  rw [toList_arr] at hrounds ⊢
  simp only [List.length_cons, List.length_append, List.length_nil] at hrounds
  rw [List.cons_append, List.append_assoc, List.singleton_append]
  by_cases hitems : items = []
  · subst hitems
    rfl
  · obtain ⟨c, text, hitemsText, hspace, hopen⟩ := exists_itemsText hitems htextual
    have hread : items? rounds depth [] ((itemsText items).toList ++ ']' :: rest) = some (items, rest) :=
      items?_itemsText hitems hreads (by omega) [] rest
    rw [hitemsText, List.cons_append] at hread ⊢
    rw [value?_list hspace hopen, hread]
    rfl

theorem setMember_of_not_mem {name : String} {value : Json} {members : List (String × Json)}
    (h : name ∉ members.map Prod.fst) : setMember name value members = members ++ [(name, value)] := by
  induction members with
  | nil => rfl
  | cons member members ih =>
    rw [List.map_cons, List.mem_cons, not_or] at h
    rw [setMember, if_neg (Ne.symm h.1), ih h.2]
    rfl

theorem string₁?_quote (name : String) (rest : List Char) :
    string₁? ((quote name).toList ++ rest) = some (name, rest) := by
  rw [toList_quote, List.cons_append, List.append_assoc, List.singleton_append, string₁?,
    skipSpaces_cons (by decide)]
  exact stringBody?_quote name rest

theorem value?_object {c : Char} (hc : isSpace c = false) (hopen : c ≠ '\x7d') (rounds depth : Nat)
    (text : List Char) : value? (rounds + 1) (depth + 1) ('\x7b' :: c :: text) =
      (members? rounds depth [] (c :: text)).map fun (members, rest) => (.obj members, rest) := by
  have hbrace : isSpace '\x7b' = false := by decide
  simp [value?, skipSpaces_cons hbrace, skipSpaces_cons hc, hopen]

theorem members?_last {rounds depth : Nat} {text rest : List Char} (name : String) {value : Json}
    (done : List (String × Json)) (h : value? rounds depth text = some (value, '\x7d' :: rest)) :
    members? (rounds + 1) depth done ((quote name).toList ++ ':' :: text) =
      some (setMember name value done, rest) := by
  simp [members?, string₁?_quote, skipSpaces_cons, isSpace, h]

theorem members?_next {rounds depth : Nat} {text rest : List Char} (name : String) {value : Json}
    (done : List (String × Json)) (h : value? rounds depth text = some (value, ',' :: rest)) :
    members? (rounds + 1) depth done ((quote name).toList ++ ':' :: text) =
      members? rounds depth (setMember name value done) rest := by
  simp [members?, string₁?_quote, skipSpaces_cons, isSpace, h]

theorem toList_membersText_singleton (name : String) (value : Json) :
    (membersText [(name, value)]).toList = (quote name).toList ++ ':' :: value.text.toList := by
  simp [membersText]

theorem toList_membersText_cons (name : String) (value : Json) (next : String × Json)
    (members : List (String × Json)) : (membersText ((name, value) :: next :: members)).toList =
      (quote name).toList ++ ':' :: (value.text.toList ++ ',' ::
        (membersText (next :: members)).toList) := by
  simp [membersText]

theorem members?_membersText {members : List (String × Json)} {depth : Nat} (hmembers : members ≠ [])
    (hreads : ∀ member ∈ members, Reads member.2 depth) {rounds : Nat}
    (hrounds : 2 * (membersText members).toList.length + 2 ≤ rounds) (done : List (String × Json))
    (hnames : ((done ++ members).map Prod.fst).Nodup) (rest : List Char) :
    members? rounds depth done ((membersText members).toList ++ '\x7d' :: rest) =
      some (done ++ members, rest) := by
  induction members generalizing rounds done with
  | nil => contradiction
  | cons member members ih =>
    obtain ⟨name, value⟩ := member
    obtain ⟨hvalue, hreads⟩ := List.forall_mem_cons.mp hreads
    obtain ⟨rounds, rfl⟩ : ∃ r, rounds = r + 2 := ⟨rounds - 2, by omega⟩
    have hread {rest} (hlength : 2 * value.text.toList.length ≤ rounds) (hrest : Stops rest) :
        value? (rounds + 1) depth (value.text.toList ++ rest) = some (value, rest) := hvalue hlength hrest
    have hnew : name ∉ done.map Prod.fst := by
      rw [List.map_append, List.map_cons] at hnames
      exact fun hmem => (List.nodup_append.mp hnames).2.2 _ hmem _ List.mem_cons_self rfl
    cases members with
    | nil =>
      rw [toList_membersText_singleton, List.length_append, List.length_cons] at hrounds
      rw [toList_membersText_singleton, List.append_assoc, List.cons_append,
        members?_last name done (hread (by omega) (by simp [Stops])), setMember_of_not_mem hnew]
    | cons next members =>
      rw [toList_membersText_cons, List.length_append, List.length_cons, List.length_append,
        List.length_cons] at hrounds
      rw [List.append_cons] at hnames
      rw [toList_membersText_cons, List.append_assoc, List.cons_append, List.append_assoc, List.cons_append,
        members?_next name done (hread (by omega) (by simp [Stops])), setMember_of_not_mem hnew,
        ih (List.cons_ne_nil _ _) hreads (by omega) _ hnames]
      simp

theorem exists_membersText {members : List (String × Json)} (hmembers : members ≠ []) :
    ∃ rest, (membersText members).toList = '"' :: rest := by
  obtain ⟨⟨name, value⟩, members, rfl⟩ := List.exists_cons_of_ne_nil hmembers
  cases members with
  | nil =>
    rw [toList_membersText_singleton, toList_quote]
    exact ⟨_, rfl⟩
  | cons =>
    rw [toList_membersText_cons, toList_quote]
    exact ⟨_, rfl⟩

theorem reads_obj {members : List (String × Json)} {depth : Nat}
    (hnames : (members.map Prod.fst).Nodup) (hreads : ∀ member ∈ members, Reads member.2 depth) :
    Reads (.obj members) (depth + 1) := by
  intro rounds rest hrounds hrest
  rw [toList_obj] at hrounds ⊢
  simp only [List.length_cons, List.length_append, List.length_nil] at hrounds
  rw [List.cons_append, List.append_assoc, List.singleton_append]
  by_cases hmembers : members = []
  · subst hmembers
    rfl
  · obtain ⟨text, hmembersText⟩ := exists_membersText hmembers
    have hread : members? rounds depth [] ((membersText members).toList ++ '\x7d' :: rest) =
        some (members, rest) := members?_membersText hmembers hreads (by omega) [] hnames rest
    rw [hmembersText, List.cons_append] at hread ⊢
    rw [value?_object (by decide) (by decide), hread]
    rfl

theorem reads_of_textual {j : Json} {depth : Nat} (h : j.Textual depth) : Reads j depth := by
  induction h with
  | null => exact fun _ _ => rfl
  | bool value => cases value <;> exact fun _ _ => rfl
  | int hleast hgreatest => exact reads_int hleast hgreatest _
  | str value => exact reads_str value _
  | arr htextual hreads => exact reads_arr htextual hreads
  | obj hnames _ hreads => exact reads_obj hnames hreads

/-- The text of a value is read as that value. -/
theorem ofText?_text {j : Json} (h : j.Textual maxDepth) : ofText? j.text = some j := by
  have hread : value? (2 * j.text.toList.length + 2) maxDepth (j.text.toList ++ []) = some (j, []) :=
    reads_of_textual h (by omega) stops_nil
  rw [List.append_nil] at hread
  simp [ofText?, hread, skipSpaces]

end IdentityLedger.Json
