/-
Evaluating queries.

The columns of a relation are those of the files that its first path stands for.  Every
other file is read as if it had the same ones: a column that it lacks is null, one of
another type is cast, and what cannot be cast is null.  The files are read in the
order of their paths, and rows in the order in which they stand.

A row counts if its block is in the range, and blocks have to be numbers.  A file whose
blocks are of another type is passed over if the least or the greatest of them, in the
order of that type, is a number beyond the range.  The rows of a payee make a group, a
null being a payee too, and the groups come in the order of their payees.  Values that
are summed are added one after the other, starting from zero and passing over nulls;
there is no sum of nulls alone.  Different values are counted by comparing payees and
values, and as numbers compare, one that is no number differs from itself; but where
one of the two columns holds truth values, bits are compared.
-/
import Rewards.Dictionary
import Rewards.Query
import Rewards.Query.Statement
import Rewards.Table.Result
import Rewards.Table.Stored

namespace Rewards

/-- The value of a parameter of a statement. -/
inductive Argument where
  | double (x : Float)
  | block (n : Int)
deriving DecidableEq

/-- A row of a relation, as far as a statement is about it. -/
structure Row where
  payee : Cell
  block : Cell
  value : Cell
deriving DecidableEq

namespace Query

/-! ### Problems -/

/-- The paths of a table, or the files of the first of them, cannot be read. -/
def unreadable (table : String) : Problem :=
  .execution ("reading partitions of '" ++ table ++ "'") .withheld

/-- The statement does not fit the columns of its relation. -/
def unplannable : Problem :=
  .execution "query planning failed" .withheld

/-- The rows cannot be read or computed with. -/
def unexecutable : Problem :=
  .execution "query execution failed" .withheld

/-- What is there, or the problem that it is not. -/
def orProblem {α : Type} (problem : Problem) : Option α → Outcome α
  | some a => .ok a
  | none => .error problem

/-! ### Reading rows -/

/-- How many rows a file of a table has. -/
def rowCount (columns : List Column) : Nat :=
  match columns with
  | [] => 0
  | c :: _ => c.cells.length

/-- A cell as a type, null if it cannot be read as that. -/
def cellAs (type : ColumnType) (cell : Cell) : Cell :=
  (cell.cast? type).getD .null

/-- The last column of a name. -/
def lastColumn? (name : String) (columns : List Column) : Option Column :=
  column? name columns.reverse

/-- The cells of a column of a file as the type that the relation has for it. -/
def cellsAs (columns : List Column) (name : String) (type : ColumnType) : List Cell :=
  match lastColumn? name columns with
  | none => List.replicate (rowCount columns) .null
  | some c => if c.type = type then c.cells else c.cells.map (cellAs type)

/-- The types that a relation has for the columns of a statement. -/
structure Schema where
  payee : ColumnType
  block : ColumnType
  value : ColumnType
deriving DecidableEq

/-- The types that a relation with some columns has for those of a statement. -/
def schemaOf (statement : Statement) (types : ColumnTypes) : Option Schema := do
  let payee ← types.lookup statement.payee
  let block ← types.lookup Statement.blockColumn
  let value ← types.lookup statement.measured
  return ⟨payee, block, value⟩

/-- The rows of a file. -/
def rowsOf (statement : Statement) (schema : Schema) (columns : List Column) : List Row :=
  let payees := cellsAs columns statement.payee schema.payee
  let blocks := cellsAs columns Statement.blockColumn schema.block
  let values := cellsAs columns statement.measured schema.value
  (payees.zip (blocks.zip values)).map fun (payee, block, value) => ⟨payee, block, value⟩

/-! ### Rows that count -/

/-- Whether a block is not before another one. -/
def isFrom (first : Int) : Cell → Bool
  | .integer n => first ≤ n
  | .double x => Decimal.rank (.ofInt first) ≤ Decimal.rank x
  | .single x => Decimal.rank32 (.ofInt first) ≤ Decimal.rank32 x
  | _ => false

/-- Whether a block is not behind another one. -/
def isUpTo (last : Int) : Cell → Bool
  | .integer n => n ≤ last
  | .double x => Decimal.rank x ≤ Decimal.rank (.ofInt last)
  | .single x => Decimal.rank32 x ≤ Decimal.rank32 (.ofInt last)
  | _ => false

/-- Whether a block is in a range. -/
def inRange (first last : Int) (block : Cell) : Bool :=
  isFrom first block && isUpTo last block

/-- Whether blocks of a type can be compared with numbers. -/
def isComparable : ColumnType → Bool
  | .int64 | .int32 | .uint64 | .float64 | .float32 => true
  | _ => false

/-- The last of some cells in an order, those that are null apart. -/
def extreme? (before : Cell → Cell → Bool) (cells : List Cell) : Option Cell :=
  (cells.filter (· ≠ .null)).foldl
    (fun last c => if last.any (before c) then last else some c) none

/-- Whether blocks of another type may be in a range by the least and the greatest of them. -/
def mayHold (first last : Int) (type : ColumnType) (cells : List Cell) : Bool :=
  let least := cellAs type ((extreme? (fun a b => b.atMost a) cells).getD .null)
  let greatest := cellAs type ((extreme? Cell.atMost cells).getD .null)
  (least = .null || isUpTo last least) && (greatest = .null || isFrom first greatest)

/-- Whether a file is passed over for its blocks. -/
def isPassedOver (first last : Int) (type : ColumnType) (columns : List Column) : Bool :=
  (column? Statement.blockColumn columns).any fun c =>
    c.type ≠ type && !mayHold first last type c.cells

/-- The rows of a file that count. -/
def countedRows (statement : Statement) (schema : Schema) (first last : Int)
    (columns : List Column) : List Row :=
  if isPassedOver first last schema.block columns then []
  else (rowsOf statement schema columns).filter (fun r => inRange first last r.block)

/-- The rows of some files that count, one file after the other. -/
def countedRowsOfFiles (statement : Statement) (schema : Schema) (first last : Int)
    (files : List StoredTable) : Outcome (List Row) := do
  return (← files.mapM fun file =>
    return countedRows statement schema first last (← orProblem unexecutable file.columns)).flatten

/-! ### Groups -/

/-- The different payees of some rows, in order. -/
def payees (rows : List Row) : List Cell :=
  (distinct (rows.map (·.payee))).mergeSort Cell.atMost

/-- A payee and the values of its rows. -/
structure Group where
  payee : Cell
  values : List Cell
deriving DecidableEq

/-- The group of a payee, its values in the order of the rows. -/
def groupOf (rows : List Row) (payee : Cell) : Group :=
  ⟨payee, (rows.filter (fun r => r.payee = payee)).map (·.value)⟩

/-- The values that are not null. -/
def present (values : List Cell) : List Cell :=
  values.filter (· ≠ .null)

/-- Whether a payee with a value compares equal to itself. -/
def Schema.equalsItself (schema : Schema) (payee value : Cell) : Bool :=
  schema.payee = .bool || schema.value = .bool || !(payee.isNaN || value.isNaN)

/-- How many different values a group has. -/
def valueCount (schema : Schema) (group : Group) : Nat :=
  let (regular, apart) := (present group.values).partition (schema.equalsItself group.payee)
  (distinct regular).length + apart.length

/-- The sum of some values, if one of them is not null; each must be a number or denote one. -/
def total? (values : List Cell) : Outcome (Option Float) := do
  let numbers ← (present values).mapM fun v => orProblem unexecutable v.real?
  return if numbers.isEmpty then none else some (numbers.foldl (· + ·) 0.0)

/-- The value of a parameter that is a double. -/
def doubleOf (arguments : List Argument) (number : Nat) : Outcome Float :=
  match arguments[number - 1]? with
  | some (.double x) => .ok x
  | _ => .error unexecutable

/-- The value of a parameter that is a block. -/
def blockOf (arguments : List Argument) (number : Nat) : Outcome Int :=
  match arguments[number - 1]? with
  | some (.block n) => .ok n
  | _ => .error unexecutable

/-- A quantity of a group. -/
def quantity (schema : Schema) (arguments : List Argument) (group : Group) :
    Quantity → Outcome (Option Float)
  | .parameter number => some <$> doubleOf arguments number
  | .rowCount => .ok (some (.ofNat group.values.length))
  | .valueCount => .ok (some (.ofNat (valueCount schema group)))
  | .total => total? group.values

/-- Two numbers combined, if both are there. -/
def combine (f : Float → Float → Float) (a b : Option Float) : Option Float := do
  return f (← a) (← b)

/-- A product of quantities of a group. -/
def product (schema : Schema) (arguments : List Argument) (group : Group) :
    List Quantity → Outcome (Option Float)
  | [] => .ok (some 1.0)
  | first :: rest => do
    rest.foldlM
      (fun result q => return combine (· * ·) result (← quantity schema arguments group q))
      (← quantity schema arguments group first)

/-- A number, or a limit that it is beyond. -/
def cap (limit x : Float) : Float :=
  if Decimal.rank limit < Decimal.rank x then limit else x

/-- The amount of a group. -/
def amount (schema : Schema) (arguments : List Argument) (group : Group) :
    Formula → Outcome (Option Float)
  | .sumOf first rest => do
    rest.foldlM
      (fun result q => return combine (· + ·) result (← product schema arguments group q))
      (← product schema arguments group first)
  | .capped factors limit => do
    let x ← product schema arguments group factors
    let limit ← quantity schema arguments group limit
    return match x, limit with
      | some x, some limit => some (cap limit x)
      | x, _ => x

/-- A number as a cell. -/
def doubleCell : Option Float → Cell
  | some x => .double x
  | none => .null

/-- The table of the amounts of some rows. -/
def amounts (statement : Statement) (schema : Schema) (arguments : List Argument)
    (rows : List Row) : Outcome ResultTable := do
  let payees := payees rows
  let amounts ← payees.mapM fun p => amount schema arguments (groupOf rows p) statement.formula
  return ⟨[(ResultTable.payeeColumn, schema.payee), (ResultTable.amountColumn, .float64)],
    if payees.isEmpty then [] else [⟨[payees, amounts.map doubleCell]⟩]⟩

/-! ### Queries -/

/-- The files of a scan, path by path. -/
def filesOf (read : TableReader) (scan : Scan) : Outcome (List (List StoredTable)) :=
  orProblem (unreadable scan.table) (scan.files.mapM read)

/-- The columns of a scan, which are those of the files of its first path. -/
def typesOf (read : TableReader) (scan : Scan) : Outcome ColumnTypes := do
  let files ← filesOf read scan
  orProblem (unreadable scan.table) do
    ColumnTypes.common? (← (← files.head?).mapM (·.columns))

/-- Files in the order in which they are read. -/
def inPathOrder (files : List StoredTable) : List StoredTable :=
  files.mergeSort (fun a b => a.path ≤ b.path)

/-- The answer of a query. -/
def evaluate (read : TableReader) (query : Query Statement) (arguments : List Argument) :
    Outcome ResultTable := do
  let _ ← query.scans.mapM (typesOf read)
  let scan ← orProblem unplannable (query.scan? query.statement.relation)
  let schema ← orProblem unplannable (schemaOf query.statement (← typesOf read scan))
  if !isComparable schema.block then throw unexecutable
  let first ← blockOf arguments query.statement.first
  let last ← blockOf arguments query.statement.last
  let files := inPathOrder (← filesOf read scan).flatten
  amounts query.statement schema arguments
    (← countedRowsOfFiles query.statement schema first last files)

end Query

end Rewards
