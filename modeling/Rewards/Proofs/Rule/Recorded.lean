/-
Schemes over records.

A table that a scheme pays for records things of some kind, each in a block.  The files
of a range are those of partitions that follow one another, and each of them holds what
lies in the blocks of its partition.  So the scheme computes with each thing once that
lies in the range as far as it is exported, whatever the partitions are and in whatever
order the files hold what is in them.
-/
import Mathlib
import Rewards.Proofs.Files.Tables
import Rewards.Proofs.Partition.Counting
import Rewards.Proofs.Partition.Store
import Rewards.Proofs.Query.Evaluation
import Rewards.Proofs.Rule.Scheme

namespace Rewards.Scheme

open Rewards.Partition

/-- The values of the parameters of the statement of a scheme. -/
def values (s : Scheme) (range : BlockRange) : List Argument :=
  s.doubles.map .double ++ [.block range.first.toNat, .block range.last.toNat]

section

variable (s : Scheme) (range : BlockRange) (relation : String)

end

variable {ε : Type} {row : ε → Row} {block : ε → Int} {s : Scheme} {schema : Query.Schema}
  {range : BlockRange} {read : TableReader}

section

variable {tree : FileTree} {store after : PartitionStore} {location root : String}
  {dataset : Dataset} {config : TableConfig} {cycle : Block} {smallest : Nat}

end

end Rewards.Scheme
