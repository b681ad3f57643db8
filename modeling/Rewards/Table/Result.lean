/-
Result tables: the answers of queries.

A result has named and typed columns, and its rows come in batches, each of which
holds the cells of every column.  Reading a column goes through the batches in order
and refuses a null, and lists where numbers are read.  A text where a number is read counts
as zero if it denotes none.

A reward is a row of a payee and an amount.  Rewards of several results are summed
payee by payee, in the order of results, batches and rows, each sum started at zero.
-/
import Rewards.Dictionary
import Rewards.Problem
import Rewards.Table.Cast

namespace Rewards

/-- The cells of some rows, column by column. -/
structure Batch where
  columns : List (List Cell)
deriving DecidableEq

/-- How many rows a batch has. -/
def Batch.rowCount (batch : Batch) : Nat :=
  match batch.columns with
  | [] => 0
  | cells :: _ => cells.length

/-- The cells of the column at an index. -/
def Batch.cells (batch : Batch) (index : Nat) : List Cell :=
  (batch.columns[index]?).getD []

/-- A table that a query answers with. -/
structure ResultTable where
  /-- The names and types of the columns. -/
  fields : List (String × ColumnType)
  batches : List Batch
deriving DecidableEq

namespace ResultTable

/-- The column of payees. -/
def payeeColumn : String := "payee"

/-- The column of amounts. -/
def amountColumn : String := "amount"

/-- The columns of a table of rewards. -/
def rewardFields : List (String × ColumnType) :=
  [(payeeColumn, .utf8), (amountColumn, .float64)]

/-- A table with one reward for each entry. -/
def ofRewards (amounts : Dictionary Float) : ResultTable :=
  ⟨rewardFields,
    [⟨[amounts.entries.map fun e => .text e.1, amounts.entries.map fun e => .double e.2]⟩]⟩

/-- The table without rewards. -/
def noRewards : ResultTable :=
  ⟨rewardFields, []⟩

/-- How many rows there are. -/
def rowCount (table : ResultTable) : Nat :=
  table.batches.foldl (fun rows batch => rows + batch.rowCount) 0

/-- Whether there are no rows. -/
def isEmpty (table : ResultTable) : Bool :=
  table.rowCount = 0

/-- The names of the columns. -/
def columnNames (table : ResultTable) : List String :=
  table.fields.map (·.1)

/-- All cells of each column. -/
def joined (table : ResultTable) : List (List Cell) :=
  (List.range table.fields.length).map fun i => table.batches.flatMap (·.cells i)

/-- A problem with reading a result. -/
def unreadable (why : String) : Problem :=
  .execution "reading query result" (.told why)

/-- The cells of a column in one batch, none of which may be null. -/
def cellsWithoutNull (name : String) (cells : List Cell) : Outcome (List Cell) :=
  if cells.contains .null then .error (unreadable ("column '" ++ name ++ "' contains nulls"))
  else .ok cells

/-- The texts of the cells of a column in one batch. -/
def cellTexts (name : String) (_ : ColumnType) (cells : List Cell) : Outcome (List String) := do
  return (← cellsWithoutNull name cells).map fun cell => cell.text?.getD ""

/-- The numbers of the cells of a column in one batch; lists are not numbers. -/
def cellReals (name : String) (type : ColumnType) (cells : List Cell) : Outcome (List Float) := do
  let cells ← cellsWithoutNull name cells
  if type = .textList then
    .error (.execution ("casting column '" ++ name ++ "' to Float64") .withheld)
  else .ok (cells.map fun cell => cell.real?.getD 0.0)

/-- What is read of the first column of a name, batch by batch, by its type and its cells. -/
def column {α : Type} (table : ResultTable) (name : String)
    (read : ColumnType → List Cell → Outcome (List α)) : Outcome (List α) := do
  match table.fields.lookup name with
  | some type =>
    let index := table.columnNames.idxOf name
    let batches ← table.batches.mapM fun batch => read type (batch.cells index)
    return batches.flatten
  | none =>
    throw (unreadable ("missing column '" ++ name ++ "' (columns: " ++
      ", ".intercalate table.columnNames ++ ")"))

/-- The texts of a column. -/
def texts (table : ResultTable) (name : String) : Outcome (List String) :=
  table.column name (cellTexts name)

/-- The numbers of a column. -/
def reals (table : ResultTable) (name : String) : Outcome (List Float) :=
  table.column name (cellReals name)

/-- The rewards of a table, row by row. -/
def rewards (table : ResultTable) : Outcome (List (String × Float)) := do
  let payees ← table.texts payeeColumn
  let amounts ← table.reals amountColumn
  return payees.zip amounts

end ResultTable

/-- Totals with one more reward. -/
def addReward (totals : Dictionary Float) (reward : String × Float) : Dictionary Float :=
  totals.insert reward.1 ((totals.get? reward.1).getD 0.0 + reward.2)

/-- The sum of the rewards of each payee in some tables. -/
def sumByPayee (tables : List ResultTable) : Outcome (Dictionary Float) :=
  tables.foldlM (fun totals table => do return (← table.rewards).foldl addReward totals) .empty

end Rewards
