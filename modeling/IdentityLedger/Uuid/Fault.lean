import IdentityLedger.Uuid

/-!
# Why a text is no identifier

A text that was refused is looked through again, unless it is longer than every form of
identifier: first for a character that has no place in an identifier, then for the number
of its groups, then for their sizes. The digits are looked for in what stands in braces
or behind the URN scheme, if the text is so wrapped. A text of 36 bytes is taken for bare
groups and not unwrapped, nor is what was unwrapped.
-/
namespace IdentityLedger.Uuid
open Text

inductive Fault where
  /-- Neither a hexadecimal digit nor a hyphen. Positions count bytes from 0. -/
  | character (c : Char) (position : Nat)
  /-- Bare digits, but not 32 of them, or a text that is too long for every form. -/
  | length (bytes : Nat)
  | groupCount (count : Nat)
  | groupSize (group size : Nat)
  deriving DecidableEq

def Fault.message : Fault → String
  | character c position =>
    "invalid character: found `" ++ String.singleton c ++ "` at " ++ toString position
  | length bytes => "invalid length: found " ++ toString bytes
  | groupCount count => "invalid group count: expected 5, found " ++ toString count
  | groupSize group size =>
    "invalid group length in group " ++ toString group ++ ": expected " ++
      toString (groups.getD group 0) ++ ", found " ++ toString size

def byteLength (text : List Char) : Nat := (String.ofList text).utf8ByteSize

def longestForm : Nat := urnScheme.length + 36

/-- What stands in braces or behind the URN scheme, and where it begins. -/
def wrapped? (text : List Char) : Option (List Char × Nat) :=
  if text.length ≥ 2 ∧ text.head? = some '\x7b' ∧ text.getLast? = some '\x7d' then
    some ((text.drop 1).dropLast, 1)
  else if (text.take 9).map Char.toLower = urnScheme then some (text.drop 9, 9)
  else none

structure Body where
  text : List Char
  start : Nat
  grouped : Bool

/-- Positions count in the whole text, but in 36 bytes that were unwrapped from the first
of them. -/
def Body.ofText (whole : List Char) : Body :=
  if byteLength whole = 36 then ⟨whole, 0, true⟩
  else
    match wrapped? whole with
    | some (text, start) => ⟨text, if byteLength text = 36 then 0 else start, true⟩
    | none => ⟨whole, 0, false⟩

def strayCharacter? : Nat → List Char → Option Fault
  | _, [] => none
  | position, c :: text =>
    if (hexValue? c).isSome ∨ c = '-' then strayCharacter? (position + 1) text
    else some (.character c position)

def groupSizes (text : List Char) : Nat × List Nat :=
  text.foldr (fun c (size, sizes) => if c = '-' then (0, size :: sizes) else (size + 1, sizes))
    (0, [])

/-- The first group of a wrong size. The last one is taken to reach to the end of the whole
text, whatever surrounds the groups. -/
def wrongGroup (whole : List Char) (sizes : List Nat) : Fault :=
  let last := groups.length - 1
  match ((groups.zip sizes).take last).findIdx? fun (expected, size) => expected ≠ size with
  | some group => .groupSize group (sizes.getD group 0)
  | none => .groupSize last (whole.length - ((groups.take last).foldl Nat.add last))

def fault (whole : List Char) : Fault :=
  let bytes := byteLength whole
  if bytes > longestForm then .length bytes
  else
    let body := Body.ofText whole
    match strayCharacter? body.start body.text with
    | some stray => stray
    | none =>
      let (first, others) := groupSizes body.text
      if others = [] ∧ !body.grouped then .length bytes
      else if others.length + 1 ≠ groups.length then .groupCount (others.length + 1)
      else wrongGroup whole (first :: others)

end IdentityLedger.Uuid
