/-
Scalars: what the text of a YAML scalar stands for.

Only a scalar without quotes stands for anything but its text.  It is the absent
value, a truth value, an integer or a double if it is written like one, and a text
otherwise.  An integer may have a sign and may be written in base sixteen, eight or
two after a mark; several decimal digits of which the first is a zero are no number.
A double must be finite unless it is one of the words for infinity and for what is no
number.

A standard tag settles what a scalar must be, however it is written, and the text has
to comply.
-/
import Rewards.Decimal.Reading
import Rewards.Shape.Mismatch
import Rewards.Text.Hex
import Rewards.Word
import Rewards.Yaml.Token

namespace Rewards.Yaml

open Shape (Found Mismatch)

/-! ### Words and numbers -/

/-- Whether a text is a word for the absent value. -/
def isNull (text : String) : Bool :=
  ["null", "Null", "NULL", "~"].contains text

/-- The truth value that a text is a word for. -/
def bool? (text : String) : Option Bool :=
  if ["true", "True", "TRUE"].contains text then some true
  else if ["false", "False", "FALSE"].contains text then some false
  else none

/-- Whether there are several decimal digits and nothing else, the first of them a zero. -/
def hasSpareZero (digits : List Char) : Bool :=
  1 < digits.length && digits.head? = some '0' && digits.all Char.isDigit

/-- The natural number that digits stand for, in the base whose mark they have. -/
def magnitude? : List Char → Option Nat
  | '0' :: 'x' :: digits => Decimal.natOfDigits? 16 Hex.digit? digits
  | '0' :: 'o' :: digits =>
    Decimal.natOfDigits? 8 (fun c => (Decimal.digit? c).filter (· < 8)) digits
  | '0' :: 'b' :: digits =>
    Decimal.natOfDigits? 2 (fun c => (Decimal.digit? c).filter (· < 2)) digits
  | digits => if hasSpareZero digits then none else Decimal.nat? digits

/-- The natural number below `bound` that a text without a minus sign stands for. -/
def natural? (bound : Nat) (text : String) : Option Nat :=
  let (negative, digits) := Decimal.splitSign text.toList
  if negative then none else (magnitude? digits).filter (· < bound)

/-- The integer that a text stands for, one that needs more than 64 bits as a wide one. -/
def integer? (text : String) : Option Found :=
  let (negative, digits) := Decimal.splitSign text.toList
  match magnitude? digits, negative with
  | some n, false =>
    if n < Word.count 64 then some (.integer n)
    else if n < Word.count 128 then some (.wideInteger n)
    else none
  | some n, true =>
    if n ≤ Word.count 63 then some (.integer (-n))
    else if n ≤ Word.count 127 then some (.wideInteger (-n))
    else none
  | none, _ => none

/-- The double that a text stands for. -/
def real? (text : String) : Option Float :=
  let unsigned := match text.toList with
    | '+' :: rest => rest
    | rest => rest
  if text.toList.head? = some '+' && (unsigned.head? = some '+' || unsigned.head? = some '-') then none
  else if [".inf", ".Inf", ".INF"].contains (String.ofList unsigned) then some (1.0 / 0.0)
  else if ["-.inf", "-.Inf", "-.INF"].contains text then some (-1.0 / 0.0)
  else if [".nan", ".NaN", ".NAN"].contains text then some (0.0 / 0.0)
  else (Decimal.float? unsigned).filter Float.isFinite

/-! ### What a scalar stands for -/

/-- What a scalar without quotes and tag stands for. -/
def plain (text : String) : Found :=
  if text = "" || isNull text then .unit
  else
    match bool? text, integer? text with
    | some b, _ => .bool b
    | none, some found => found
    | none, none =>
      match real? text with
      | some x => if hasSpareZero (Decimal.splitSign text.toList).2 then .text text else .real x
      | none => .text text

/-- What a scalar must be by its tag, or the mismatch of its text with the words for that. -/
def required (text expected : String) (found : Option Found) : Except Mismatch Found :=
  match found with
  | some found => .ok found
  | none => .error (.wrongValue (.text text) expected)

/-- What a scalar stands for. -/
def found (tag : Option Tag) (style : Style) (text : String) : Except Mismatch Found :=
  let untagged := if style = .plain then plain text else .text text
  match tag with
  | none => .ok untagged
  | some tag =>
    if tag = .standard "bool" then required text "a boolean" ((bool? text).map .bool)
    else if tag = .standard "int" then required text "an integer" (integer? text)
    else if tag = .standard "float" then required text "a float" ((real? text).map .real)
    else if tag = .standard "null" then
      required text "null" (if isNull text then some .unit else none)
    else if tag.afterMark?.isSome then .ok untagged
    else .ok (.text text)

/-- Whether a whole number, or a double, may be read off a scalar for which its tag is `expected`. -/
def isNumeric (expected : Tag) (tag : Option Tag) (style : Style) : Bool :=
  style = .plain || (style = .literal && tag = some expected)

end Rewards.Yaml
