/-
What lies in a block is read once.

A file holds what lies in the blocks of its partition.  The partitions that are selected
for a range follow one another, so putting together what their files hold gives each
thing once that lies between their ends; and what is left of it in the range is all that
lies in the range and in complete partitions.
-/
import Rewards.Proofs.Partition.Selection

namespace Rewards.Partition

variable {α : Type} (block : α → Int)

/-- The things of a list that lie in the blocks from `start` up to `stop`, without it. -/
def inBlocks (start stop : Nat) (l : List α) : List α :=
  l.filter fun a => (start : Int) ≤ block a && block a < stop

end Rewards.Partition
