import IdentityLedger.Json.Basic
import IdentityLedger.Numeric.Shortest

/-!
# Writing JSON texts

Values are written without blanks. A floating-point number keeps a point, so
that it reads back as one.
-/
namespace IdentityLedger.Json
open Text

def escapeChar (c : Char) : List Char :=
  if c = '"' then ['\\', '"']
  else if c = '\\' then ['\\', '\\']
  else if c.toNat < 0x20 then '\\' :: 'u' :: hexDigits 4 c.toNat
  else [c]

def quote (s : String) : String :=
  String.ofList ('"' :: (s.toList.flatMap escapeChar) ++ ['"'])

/-- In JSON, numbers below `10 ^ -5` have an exponent, a positive exponent has a sign, and
the even neighbour is taken for a tie. -/
def floatStyle : Numeric.FloatStyle := ⟨.even, -4, true⟩

/-- A double that is no number has no JSON form and is written as null. -/
def floatText (x : Float) : String :=
  if x.isFinite then Numeric.styledText floatStyle x else "null"

mutual

def text : Json → String
  | .null => "null"
  | .bool value => if value then "true" else "false"
  | .int value => toString value
  | .float value => floatText value
  | .str value => quote value
  | .arr items => "[" ++ itemsText items ++ "]"
  | .obj members => "\x7b" ++ membersText members ++ "\x7d"

def itemsText : List Json → String
  | [] => ""
  | [item] => item.text
  | item :: items => item.text ++ "," ++ itemsText items

def membersText : List (String × Json) → String
  | [] => ""
  | [(name, value)] => quote name ++ ":" ++ value.text
  | (name, value) :: members => quote name ++ ":" ++ value.text ++ "," ++ membersText members

end

end IdentityLedger.Json
