/-
Columns: what tables are made of.

A column has a name, a type and cells.  Any cell may be null, whatever the type; the
other cells of a column are of its type.
-/

namespace Rewards

/-- The type of a column. -/
inductive ColumnType where
  | utf8
  | largeUtf8
  | utf8View
  | int64
  | int32
  | uint64
  | float64
  | float32
  | bool
  /-- Lists of texts. -/
  | textList
deriving DecidableEq

/-- One cell of a table. -/
inductive Cell where
  | null
  | text (s : String)
  | integer (n : Int)
  | double (x : Float)
  | single (x : Float32)
  | flag (b : Bool)
  | texts (items : List String)
deriving DecidableEq

/-- A column with its cells. -/
structure Column where
  name : String
  type : ColumnType
  cells : List Cell
deriving DecidableEq

/-- The first column of a name. -/
def column? (name : String) (columns : List Column) : Option Column :=
  columns.find? (fun c => c.name == name)

end Rewards
