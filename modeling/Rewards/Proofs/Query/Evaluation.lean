/-
What a query answers over files that hold what they should.

If each path of a scan stands for one file and the columns of a statement have the same
types in all of them, then no file is passed over, no cell is cast, and the rows that
are computed with are those of all files in some order, as far as they are in range.
-/
import Mathlib
import Rewards.Proofs.Outcome
import Rewards.Query.Evaluation

namespace Rewards

/-! ### Columns that names stand for -/

namespace ColumnTypes

end ColumnTypes

namespace Query

/-! ### The rows of a file -/

variable {statement : Statement} {schema : Schema} {columns : List Column} {rows : List Row}

variable {ι : Type} {parts : List ι} {path : ι → String} {columnsOf : ι → List Column}
  {rowsIn : ι → List Row} {read : TableReader}

end Query

end Rewards
