/-
Tables as JSON.

A table is an array of its columns, and a column is an object with a name, the name of
its type and its cells.  The null cell is null whatever the type.  A number that is not
finite has no JSON of its own and is written as the text that names it.
-/
import Rewards.Decimal.Layout
import Rewards.Json
import Rewards.Table.Column

namespace Rewards

namespace ColumnType

/-- The name of a type. -/
def name : ColumnType → String
  | utf8 => "utf8"
  | largeUtf8 => "largeutf8"
  | utf8View => "utf8view"
  | int64 => "int64"
  | int32 => "int32"
  | uint64 => "uint64"
  | float64 => "float64"
  | float32 => "float32"
  | bool => "bool"
  | textList => "textlist"

/-- All types. -/
def all : List ColumnType :=
  [utf8, largeUtf8, utf8View, int64, int32, uint64, float64, float32, bool, textList]

/-- The type of a name. -/
def ofName? (name : String) : Option ColumnType :=
  all.find? fun type => type.name == name

end ColumnType

namespace Json

/-- A double, which is text if it is not finite. -/
def double (x : Float) : Json :=
  if x.isFinite then .real x else .text (String.ofList (Decimal.Layout.positional.float x))

/-- The double that a value stands for. -/
def double? : Json → Option Float
  | .number (.integer n) => some (.ofInt n)
  | .number (.real x) => some x
  | .text "NaN" => some (0.0 / 0.0)
  | .text "inf" => some (1.0 / 0.0)
  | .text "-inf" => some (-1.0 / 0.0)
  | _ => none

/-- The text that a value is. -/
def text? : Json → Option String
  | .text s => some s
  | _ => none

end Json

namespace Cell

/-- A cell as a JSON value. -/
def toJson : Cell → Json
  | null => .null
  | text s => .text s
  | integer n => .integer n
  | double x => .double x
  | single x => .double x.toFloat
  | flag b => .bool b
  | texts items => .array (items.map .text)

/-- The cell of a type that a JSON value stands for. -/
def ofJson? (type : ColumnType) (value : Json) : Option Cell :=
  match type, value with
  | _, .null => some .null
  | .utf8, .text s | .largeUtf8, .text s | .utf8View, .text s => some (.text s)
  | .int64, .number (.integer n) | .int32, .number (.integer n) | .uint64, .number (.integer n) =>
    some (.integer n)
  | .float64, value => value.double?.map .double
  | .float32, value => value.double?.map fun x => .single x.toFloat32
  | .bool, .bool b => some (.flag b)
  | .textList, .array items => (items.mapM Json.text?).map .texts
  | _, _ => none

end Cell

namespace Column

/-- A column as a JSON object. -/
def toJson (column : Column) : Json :=
  .object
    [("name", .text column.name),
     ("type", .text column.type.name),
     ("values", .array (column.cells.map Cell.toJson))]

/-- The column that a JSON object stands for. -/
def ofJson? (value : Json) : Option Column := do
  let name ← (← value.member? "name").text?
  let type ← ColumnType.ofName? (← (← value.member? "type").text?)
  match ← value.member? "values" with
  | .array cells => return ⟨name, type, ← cells.mapM (Cell.ofJson? type)⟩
  | _ => none

end Column

end Rewards
