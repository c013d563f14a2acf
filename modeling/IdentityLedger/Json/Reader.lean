import IdentityLedger.Json.Number

/-!
# Reading JSON texts

A text holds one value, with blanks (space, tab, line feed, carriage return)
allowed around every token. Of two members with one name the later counts. Lists
and objects that are nested too deep are refused.
-/
namespace IdentityLedger.Json
open Text

def isSpace (c : Char) : Bool := c == ' ' || c == '\t' || c == '\n' || c == '\r'

def skipSpaces (text : List Char) : List Char := text.dropWhile isSpace

def unit16? (text : List Char) : Option (Nat × List Char) :=
  if text.length < 4 then none
  else (ofHex? (text.take 4)).map fun n => (n, text.drop 4)

/-- A character given by one code unit, or by a high and a low surrogate. -/
def escapedUnit? (text : List Char) : Option (Char × List Char) := do
  let (high, rest) ← unit16? text
  if 0xD800 ≤ high ∧ high < 0xDC00 then
    match rest with
    | '\\' :: 'u' :: rest =>
      let (low, rest) ← unit16? rest
      if 0xDC00 ≤ low ∧ low < 0xE000 then
        some (Char.ofNat (0x10000 + (high - 0xD800) * 0x400 + (low - 0xDC00)), rest)
      else none
    | _ => none
  else if 0xDC00 ≤ high ∧ high < 0xE000 then none
  else some (Char.ofNat high, rest)

def stringChar? : List Char → Option (Char × List Char)
  | '\\' :: '"' :: rest => some ('"', rest)
  | '\\' :: '\\' :: rest => some ('\\', rest)
  | '\\' :: '/' :: rest => some ('/', rest)
  | '\\' :: 'b' :: rest => some ('\x08', rest)
  | '\\' :: 'f' :: rest => some ('\x0c', rest)
  | '\\' :: 'n' :: rest => some ('\n', rest)
  | '\\' :: 'r' :: rest => some ('\r', rest)
  | '\\' :: 't' :: rest => some ('\t', rest)
  | '\\' :: 'u' :: rest => escapedUnit? rest
  | '\\' :: _ => none
  | c :: rest => if c.toNat < 0x20 then none else some (c, rest)
  | [] => none

/-- The characters up to the closing quote, collected in reverse. -/
def stringBody? : Nat → List Char → List Char → Option (String × List Char)
  | 0, _, _ => none
  | _ + 1, done, '"' :: rest => some (String.ofList done.reverse, rest)
  | rounds + 1, done, text =>
    match stringChar? text with
    | some (c, rest) => stringBody? rounds (c :: done) rest
    | none => none

def string₁? (text : List Char) : Option (String × List Char) :=
  match skipSpaces text with
  | '"' :: rest => stringBody? (rest.length + 1) [] rest
  | _ => none

mutual

/-- Reads a value; the first argument bounds how many values and members are met, the second
how deep lists and objects are nested. -/
def value? : Nat → Nat → List Char → Option (Json × List Char)
  | 0, _, _ => none
  | rounds + 1, depth, text =>
    match skipSpaces text with
    | 'n' :: 'u' :: 'l' :: 'l' :: rest => some (.null, rest)
    | 't' :: 'r' :: 'u' :: 'e' :: rest => some (.bool true, rest)
    | 'f' :: 'a' :: 'l' :: 's' :: 'e' :: rest => some (.bool false, rest)
    | '"' :: rest => (stringBody? (rest.length + 1) [] rest).map fun (s, rest) => (.str s, rest)
    | '[' :: rest =>
      if depth = 0 then none
      else
        match skipSpaces rest with
        | ']' :: rest => some (.arr [], rest)
        | rest => (items? rounds (depth - 1) [] rest).map fun (items, rest) => (.arr items, rest)
    | '\x7b' :: rest =>
      if depth = 0 then none
      else
        match skipSpaces rest with
        | '\x7d' :: rest => some (.obj [], rest)
        | rest =>
          (members? rounds (depth - 1) [] rest).map fun (members, rest) => (.obj members, rest)
    | text => (Numeral.read? text).bind fun (n, rest) => n.value?.map fun v => (v, rest)

def items? : Nat → Nat → List Json → List Char → Option (List Json × List Char)
  | 0, _, _, _ => none
  | rounds + 1, depth, done, text =>
    match value? rounds depth text with
    | none => none
    | some (item, rest) =>
      match skipSpaces rest with
      | ',' :: rest => items? rounds depth (item :: done) rest
      | ']' :: rest => some ((item :: done).reverse, rest)
      | _ => none

def members? : Nat → Nat → List (String × Json) → List Char →
    Option (List (String × Json) × List Char)
  | 0, _, _, _ => none
  | rounds + 1, depth, done, text =>
    match string₁? text with
    | none => none
    | some (name, rest) =>
      match skipSpaces rest with
      | ':' :: rest =>
        match value? rounds depth rest with
        | none => none
        | some (value, rest) =>
          match skipSpaces rest with
          | ',' :: rest => members? rounds depth (setMember name value done) rest
          | '\x7d' :: rest => some (setMember name value done, rest)
          | _ => none
      | _ => none

end

/-- How deep lists and objects may be nested in a text. -/
def maxDepth : Nat := 127

/-- Reads a whole text. Every round but a last one takes a character, or leads to one
that does, so twice the length is enough. -/
def ofText? (text : String) : Option Json :=
  let chars := text.toList
  match value? (2 * chars.length + 2) maxDepth chars with
  | some (value, rest) => if skipSpaces rest = [] then some value else none
  | none => none

end IdentityLedger.Json
