/-
What the table of a handoff holds.

The table is built column by column and read row by row.  What is said here of some columns is
what a reader sees: which columns there are, and what stands in each of them at the index of a
row (`HoldRows`).  A row has a field for everything that is known of a payment, one for its leaf
and one for its proof, and none of them is ever empty.  So a statement about the rows of a handoff
is one about its table.
-/
import Mathlib
import Rewards.Payment.Table

namespace Rewards

/-- The fields of a row, each with the name of its column. -/
def ProvenPayment.fields (row : ProvenPayment) : List (String × Cell) :=
  [("payee", .text row.payment.payee),
   ("amount", .double row.payment.amount),
   ("token", .text row.payment.token),
   ("reward_program_id", .text row.payment.programId),
   ("payment_cycle", .integer row.payment.paymentCycle.toNat),
   ("valid_from", .integer row.payment.validFrom.toNat),
   ("valid_to", .integer row.payment.validTo.toNat),
   ("leaf", .text row.leaf),
   ("proof", .texts row.proof)]

namespace Handoff

/-- The names and types of the columns, in their order. -/
def header : List (String × ColumnType) :=
  [("payee", .utf8), ("amount", .float64), ("token", .utf8), ("reward_program_id", .utf8),
   ("payment_cycle", .uint64), ("valid_from", .uint64), ("valid_to", .uint64), ("leaf", .utf8),
   ("proof", .textList)]

/-- Columns hold some rows, each of them at its index, and nothing else. -/
structure HoldRows (columns : List Column) (rows : List ProvenPayment) : Prop where
  header_eq : columns.map (fun c => (c.name, c.type)) = header
  /-- There is a cell for each row. -/
  length_cells : ∀ column ∈ columns, column.cells.length = rows.length
  /-- At the index of a row, the columns have the fields of the row. -/
  fields_eq : ∀ (i : Nat) (row : ProvenPayment), rows[i]? = some row →
    columns.map (fun c => (c.name, c.cells[i]?)) = row.fields.map fun f => (f.1, some f.2)

/-- **The table of a handoff holds its rows.** -/
theorem holdRows_columns (handoff : Handoff) : HoldRows handoff.columns handoff.rows where
  header_eq := rfl
  length_cells := by
    simp [columns]
  fields_eq := by
    intro i row hrow
    simp [columns, ProvenPayment.fields, hrow]

end Handoff

end Rewards
