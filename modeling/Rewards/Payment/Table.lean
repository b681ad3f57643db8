/-
The table of payments that is handed off, and the file that it is written to.

A row is a payment with its leaf and its proof.  The file has a fixed name in a
directory that is made if it is not there.
-/
import Rewards.Files.Tree
import Rewards.Payment.Tree

namespace Rewards

namespace Handoff

/-- The table, column by column. -/
def columns (h : Handoff) : List Column :=
  let texts (name : String) (cell : ProvenPayment → String) : Column :=
    ⟨name, .utf8, h.rows.map fun r => .text (cell r)⟩
  let words (name : String) (cell : ProvenPayment → UInt64) : Column :=
    ⟨name, .uint64, h.rows.map fun r => .integer (cell r).toNat⟩
  [texts "payee" (·.payment.payee),
   ⟨"amount", .float64, h.rows.map fun r => .double r.payment.amount⟩,
   texts "token" (·.payment.token),
   texts "reward_program_id" (·.payment.programId),
   words "payment_cycle" (·.payment.paymentCycle),
   words "valid_from" (·.payment.validFrom),
   words "valid_to" (·.payment.validTo),
   texts "leaf" (·.leaf),
   ⟨"proof", .textList, h.rows.map fun r => .texts r.proof⟩]

/-- The name of the file. -/
def fileName : String := "results.parquet"

/-- The path of the file in a directory. -/
def filePath (directory : String) : String :=
  Path.join directory fileName

/-- A problem with making a directory or a file. -/
def creating (path : String) (obstacle : Obstacle) : Problem :=
  .execution ("creating " ++ path) (.told obstacle.words)

/-- Write the table into a directory: the tree after it, and whether all went well. -/
def write (h : Handoff) (directory : String) (tree : FileTree) : Outcome Unit × FileTree :=
  match tree.makeDirectories directory with
  | (.error obstacle, made) => (.error (creating directory obstacle), made)
  | (.ok (), made) =>
    match made.writeFile directory fileName (.table h.columns) with
    | .error obstacle => (.error (creating (filePath directory) obstacle), made)
    | .ok written => (.ok (), written)

end Handoff

end Rewards
