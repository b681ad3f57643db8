/-
Canonical JSON text: one text for each value.

Members stand in ascending order of their keys at every level, each key once, and
nothing stands between the tokens.  Strings escape only what must be escaped.
Doubles are written with the fewest digits that read back, positionally while the
first digit stands for `10 ^ -5` or more and less than `10 ^ 16`, and always with a
point or an exponent, so that no double is written like an integer.

The text is a function of how numbers are written (`charsWith`); the program writes
them as `Number.chars`.
-/
import Rewards.Decimal.Layout
import Rewards.Dictionary
import Rewards.Json

namespace Rewards

namespace Number

/-- Doubles are positional from `10 ^ -5` up to `10 ^ 16` and otherwise have a signed exponent. -/
def layout : Decimal.Layout :=
  ⟨some (-5), some 16, ".0", "+", .even⟩

/-- Singles are positional from `10 ^ -6` up to `10 ^ 13`. -/
def singleLayout : Decimal.Layout :=
  { layout with plainFrom := some (-6), plainBelow := some 13 }

/-- The decimal text of an integer. -/
def integerChars : Int → List Char
  | .ofNat n => Nat.toDigits 10 n
  | .negSucc n => '-' :: Nat.toDigits 10 (n + 1)

/-- The text of a number. -/
def chars : Number → List Char
  | .integer n => integerChars n
  | .real x => layout.float x

end Number

namespace Json

/-- A character of a string, escaped if it must be. -/
def escape (c : Char) : List Char :=
  if c = '"' then ['\\', '"']
  else if c = '\\' then ['\\', '\\']
  else if c = '\x08' then ['\\', 'b']
  else if c = '\x0c' then ['\\', 'f']
  else if c = '\n' then ['\\', 'n']
  else if c = '\r' then ['\\', 'r']
  else if c = '\t' then ['\\', 't']
  else if c.toNat < 32 then
    ['\\', 'u', '0', '0', Nat.digitChar (c.toNat / 16), Nat.digitChar (c.toNat % 16)]
  else [c]

/-- A string between quotes. -/
def quoted (s : String) : List Char :=
  '"' :: s.toList.flatMap escape ++ ['"']

/-- Texts one after the other with commas between them. -/
def commaSeparated : List (List Char) → List Char
  | [] => []
  | [t] => t
  | t :: rest => t ++ ',' :: commaSeparated rest

/-- The text of one member of an object. -/
def memberChars (member : String × List Char) : List Char :=
  quoted member.1 ++ ':' :: member.2

mutual

/-- The canonical text of a value whose numbers are written by `number`. -/
def charsWith (number : Number → List Char) : Json → List Char
  | .null => "null".toList
  | .bool true => "true".toList
  | .bool false => "false".toList
  | .number n => number n
  | .text s => quoted s
  | .array items => '[' :: commaSeparated (itemsWith number items) ++ [']']
  | .object members =>
    '{' :: commaSeparated ((Dictionary.ofList (membersWith number members)).entries.map memberChars)
      ++ ['}']

/-- The canonical texts of the items of an array. -/
def itemsWith (number : Number → List Char) : List Json → List (List Char)
  | [] => []
  | item :: rest => charsWith number item :: itemsWith number rest

/-- The members of an object with the canonical texts of their values. -/
def membersWith (number : Number → List Char) : List (String × Json) → List (String × List Char)
  | [] => []
  | (key, value) :: rest => (key, charsWith number value) :: membersWith number rest

end

/-- The canonical text of a value. -/
def canonical (v : Json) : String :=
  String.ofList (charsWith Number.chars v)

end Json

end Rewards
