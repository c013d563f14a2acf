import IdentityLedger.Text.Digits

/-!
# Universally unique identifiers

An identifier is 128 bits, compared as a number. It is written as 32 lower-case
hexadecimal digits in groups of 8, 4, 4, 4 and 12, and read in four forms: bare
digits, grouped, grouped in braces, and grouped behind the URN scheme.
-/
namespace IdentityLedger

structure Uuid where
  bits : BitVec 128
  deriving DecidableEq

namespace Uuid
open Text

instance : LT Uuid := ⟨fun a b => a.bits < b.bits⟩

instance (a b : Uuid) : Decidable (a < b) := inferInstanceAs (Decidable (a.bits < b.bits))

def groups : List Nat := [8, 4, 4, 4, 12]

/-- Cuts a text into groups of the given sizes, joined by hyphens. -/
def hyphenate : List Nat → List Char → List Char
  | size :: next :: sizes, text =>
    text.take size ++ '-' :: hyphenate (next :: sizes) (text.drop size)
  | _, text => text

/-- Undoes `hyphenate`; fails where a hyphen is missing or a group has another size. -/
def joinGroups : List Nat → List Char → Option (List Char)
  | [], text => if text = [] then some [] else none
  | [size], text => if text.length = size then some text else none
  | size :: next :: sizes, text =>
    match text.drop size with
    | '-' :: rest => (joinGroups (next :: sizes) rest).map (text.take size ++ ·)
    | _ => none

def chars (id : Uuid) : List Char := hyphenate groups (hexDigits 32 id.bits.toNat)

def text (id : Uuid) : String := String.ofList id.chars

def urnScheme : List Char := "urn:uuid:".toList

/-- The bare digits of a written identifier, whichever of the four forms it has. -/
def digits? (text : List Char) : Option (List Char) :=
  if text.length = 32 then some text
  else if text.length = 36 then joinGroups groups text
  else if text.length = 38 then
    if text.head? = some '\x7b' ∧ text.getLast? = some '\x7d' then
      joinGroups groups (text.drop 1).dropLast
    else none
  else if text.length = 45 then
    if (text.take 9).map Char.toLower = urnScheme then joinGroups groups (text.drop 9) else none
  else none

def ofChars? (text : List Char) : Option Uuid :=
  (digits? text).bind fun digits => (ofHex? digits).map fun n => ⟨BitVec.ofNat 128 n⟩

def ofText? (text : String) : Option Uuid := ofChars? text.toList

/-- The version field: the thirteenth hexadecimal digit. -/
def version (id : Uuid) : Nat := (id.bits.extractLsb' 76 4).toNat

/-- Time-ordered identifiers (version 7) number `n = 0, 1, 2, …` of one supply. -/
def timeOrdered (n : Nat) : Uuid :=
  ⟨BitVec.ofNat 128 (0x018f0000000070008000000000000000 + n)⟩

end Uuid

end IdentityLedger
