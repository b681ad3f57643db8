/-
Casts: cells read as another type, and the order of cells.

A number becomes the text that it is written as, with an exponent that has no sign if
it is positive; a truth value becomes a word, and a list its items in brackets.  A text
becomes the double that it denotes, if it denotes one: a decimal, or a word for infinity
or for what is no number.  A cell that cannot be read as a type has no cast to it, and a
null is null in every type.
-/
import Rewards.Decimal.Layout
import Rewards.Decimal.Reading
import Rewards.Json.Canonical
import Rewards.Table.Column
import Rewards.Text.Form
import Rewards.Word

namespace Rewards

/-! ### Texts and numbers -/

/-- Doubles of a column have an exponent without a plus sign. -/
def Cell.layout : Decimal.Layout :=
  { Number.layout with positiveExponent := "" }

/-- Singles of a column have an exponent without a plus sign. -/
def Cell.singleLayout : Decimal.Layout :=
  { Number.singleLayout with positiveExponent := "" }

/-- What a text denotes: a decimal, or one of the words for infinity and for what is no number. -/
def denoted? {α : Type} [Neg α] (infinity nan : α) (decimal? : List Char → Option α)
    (text : String) : Option α :=
  let (negative, rest) := Decimal.splitSign text.toList
  match String.ofList (rest.map Char.toLower) with
  | "inf" => some (if negative then -infinity else infinity)
  | "infinity" => some (if negative then -infinity else infinity)
  | "nan" => some nan
  | _ => decimal? text.toList

/-- The double that a text denotes. -/
def denotedDouble? (text : String) : Option Float :=
  denoted? (1.0 / 0.0) (0.0 / 0.0) Decimal.float? text

/-- The single that a text denotes. -/
def denotedSingle? (text : String) : Option Float32 :=
  denoted? (1.0 / 0.0) (0.0 / 0.0) Decimal.float32? text

namespace Cell

/-- The text of a cell; a null has none. -/
def text? : Cell → Option String
  | .text s => some s
  | .integer n => some (String.ofList (Number.integerChars n))
  | .double x => some (String.ofList (layout.float x))
  | .single x => some (String.ofList (singleLayout.float32 x))
  | .flag b => some (if b then "true" else "false")
  | .texts items => some ("[" ++ ", ".intercalate items ++ "]")
  | .null => none

/-- The number of a cell; a null, a list and a text that denotes none have none. -/
def real? : Cell → Option Float
  | .text s => denotedDouble? s
  | .integer n => some (.ofInt n)
  | .double x => some x
  | .single x => some x.toFloat
  | .flag b => some (if b then 1.0 else 0.0)
  | _ => none

/-- The number of a cell as a single, rounded once. -/
def single? : Cell → Option Float32
  | .text s => denotedSingle? s
  | .integer n => some (.ofInt n)
  | .double x => some x.toFloat32
  | .single x => some x
  | .flag b => some (if b then 1.0 else 0.0)
  | _ => none

/-- The truth value that a text is a word for, with or without blanks around it. -/
def flagWord? (text : String) : Option Bool :=
  let word := String.ofList ((Text.trimmed text).toList.map Char.toLower)
  if ["t", "tr", "tru", "true", "y", "ye", "yes", "on", "1"].contains word then some true
  else if ["f", "fa", "fal", "fals", "false", "n", "no", "of", "off", "0"].contains word then some false
  else none

/-- A double without its fraction, if it is finite. -/
def truncated? (x : Float) : Option Int :=
  match Decimal.Value.ofFloat x with
  | .zero _ => some 0
  | .finite negative b =>
    let n : Int := (b.significand * Nat.pow 2 b.exponent.toNat / Nat.pow 2 (-b.exponent).toNat : Nat)
    some (if negative then -n else n)
  | _ => none

/-- The integer of a cell, without a fraction that it may have. -/
def integer? : Cell → Option Int
  | .text s => Decimal.int? s.toList
  | .integer n => some n
  | .double x => truncated? x
  | .single x => truncated? x.toFloat
  | .flag b => some (if b then 1 else 0)
  | _ => none

/-- The truth value of a cell: a number is true if it is not zero. -/
def flag? : Cell → Option Bool
  | .text s => flagWord? s
  | .integer n => some (n ≠ 0)
  | .double x => some (x != 0.0)
  | .single x => some (x != 0.0)
  | .flag b => some b
  | _ => none

/-- The integer of a cell if it is from `low` up to `high`. -/
def integerBetween? (low high : Int) (cell : Cell) : Option Cell :=
  (cell.integer?.filter fun n => low ≤ n && n ≤ high).map .integer

/-- A cell as a type. -/
def cast? (type : ColumnType) (cell : Cell) : Option Cell :=
  match type, cell with
  | _, .null => some .null
  | .textList, .texts items => some (.texts items)
  | .textList, _ => none
  | .utf8, cell => cell.text?.map .text
  | .largeUtf8, cell => cell.text?.map .text
  | .utf8View, cell => cell.text?.map .text
  | .int64, cell => cell.integerBetween? (-Word.count 63) (Word.count 63 - 1)
  | .int32, cell => cell.integerBetween? (-Word.count 31) (Word.count 31 - 1)
  | .uint64, cell => cell.integerBetween? 0 (Word.count 64 - 1)
  | .float64, cell => cell.real?.map .double
  | .float32, cell => cell.single?.map .single
  | .bool, cell => cell.flag?.map .flag

/-! ### Order -/

/-- Whether a cell is what is no number. -/
def isNaN : Cell → Bool
  | .double x => x.isNaN
  | .single x => x.isNaN
  | _ => false

/-- Where the cells of a kind stand among those of other kinds. -/
def kind : Cell → Nat
  | .text _ => 0
  | .integer _ => 1
  | .double _ => 2
  | .single _ => 3
  | .flag _ => 4
  | .texts _ => 5
  | .null => 6

/-- Whether a cell does not come after another: texts by code points, numbers by size, nulls last. -/
def atMost (a b : Cell) : Bool :=
  match a, b with
  | .text s, .text t => s ≤ t
  | .integer m, .integer n => m ≤ n
  | .double x, .double y => Decimal.rank x ≤ Decimal.rank y
  | .single x, .single y => Decimal.rank32 x ≤ Decimal.rank32 y
  | .flag x, .flag y => !x || y
  | a, b => a.kind ≤ b.kind

end Cell

end Rewards
