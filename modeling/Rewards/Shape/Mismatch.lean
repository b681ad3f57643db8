/-
Mismatches: how a value fails to have the shape it is read as.

A mismatch names what was found and what was expected, or the field that is missing,
unknown or repeated.  The sentence for it depends on the format the value came from
in two places only, the name of the absent value and the text of a double; a format
states both in its `Wording`.
-/
import Rewards.Json.Canonical
import Rewards.Text.Printable

namespace Rewards.Shape

/-- What stood where something else was expected. -/
inductive Found where
  /-- The absent value. -/
  | unit
  | bool (b : Bool)
  | integer (n : Int)
  /-- An integer that needs more than 64 bits. -/
  | wideInteger (n : Int)
  | real (x : Float)
  | text (s : String)
  | sequence
  | map
  /-- A value with a tag of its own. -/
  | enumeration
deriving DecidableEq

/-- Why a value does not have a shape. -/
inductive Mismatch where
  | wrongType (found : Found) (expected : String)
  | wrongValue (found : Found) (expected : String)
  | wrongLength (length : Nat) (expected : String)
  | missingField (name : String)
  | unknownField (name : String) (known : List String)
  | duplicateField (name : String)
  /-- An integer that needs more than 64 bits, where any value is expected. -/
  | numberOutOfRange
  /-- The text is not a document. -/
  | unreadable
deriving DecidableEq

/-- The words of a format. -/
structure Wording where
  /-- The name of the absent value. -/
  unit : String
  /-- The text of a double. -/
  real : Float → List Char

/-- A name between backquotes. -/
def named (name : String) : String :=
  "`" ++ name ++ "`"

/-- The words for what was found. -/
def Found.words (w : Wording) : Found → String
  | .unit => w.unit
  | .bool b => "boolean " ++ named (if b then "true" else "false")
  | .integer n => "integer " ++ named (String.ofList (Number.integerChars n))
  | .wideInteger n =>
    "integer " ++ named (String.ofList (Number.integerChars n)) ++
      (if n < 0 then " as i128" else " as u128")
  | .real x => "floating point " ++ named (String.ofList (w.real x))
  | .text s => "string " ++ Text.quoted s
  | .sequence => "sequence"
  | .map => "map"
  | .enumeration => "enum"

/-- The sentence for a mismatch; there is none for text that is no document. -/
def Mismatch.sentence? (w : Wording) : Mismatch → Option String
  | .wrongType found expected => some ("invalid type: " ++ found.words w ++ ", expected " ++ expected)
  | .wrongValue found expected => some ("invalid value: " ++ found.words w ++ ", expected " ++ expected)
  | .wrongLength length expected =>
    some ("invalid length " ++ String.ofList (Nat.toDigits 10 length) ++ ", expected " ++ expected)
  | .missingField name => some ("missing field " ++ named name)
  | .unknownField name known =>
    some ("unknown field " ++ named name ++ ", expected one of " ++ ", ".intercalate (known.map named))
  | .duplicateField name => some ("duplicate field " ++ named name)
  | .numberOutOfRange => some "JSON number out of range"
  | .unreadable => none

end Rewards.Shape
