/-
Weighted usage counts every card payment once.

A dataset of card payments holds each payment in the files of the partitions that its
block lies in, so one payment may be in several files, of different sizes.  The files
that are read for a cycle are those of partitions that follow one another, and from them
the payments in the cycle's blocks are taken.  So each payment of the cycle is counted
once if the export has come past its block, and every other payment is not counted.
-/
import Mathlib
import Rewards.Proofs.Files.Tables
import Rewards.Proofs.Query.Groups
import Rewards.Proofs.Rule.Recorded
import Rewards.Proofs.Utf8
import Rewards.Rule.WeightedUsage

namespace Rewards

open Rewards.Partition

/-! ### Card payments and where they are recorded -/

/-- A payment with a prepaid card. -/
structure CardPayment where
  owner : String
  spend : Float
  block : Int

namespace CardPayment

/-- Columns that record some payments, in any order and next to other columns. -/
structure RecordedIn (payments : List CardPayment) (columns : List Column) : Prop where
  /-- No two columns have one name. -/
  names : (columns.map (·.name)).Nodup
  rows : ∃ rows : List CardPayment, rows.Perm payments ∧
    ⟨"prepaid_card_owner", .utf8, rows.map fun e => .text e.owner⟩ ∈ columns ∧
    ⟨"block_number", .int64, rows.map fun e => .integer e.block⟩ ∈ columns ∧
    ⟨"spend_amount", .float64, rows.map fun e => .double e.spend⟩ ∈ columns

/-- A path to a file that records some payments. -/
def RecordedAt (payments : List CardPayment) (tree : FileTree) (path : String) : Prop :=
  ∃ place columns, tree.resolve path = .ok (place, .file (.table columns)) ∧
    RecordedIn payments columns

def row (e : CardPayment) : Row :=
  ⟨.text e.owner, .integer e.block, .double e.spend⟩

end CardPayment

/-! ### What an owner gets -/

/-- The reward for some amounts spent, one for each payment. -/
def WeightedUsageParameters.reward (p : WeightedUsageParameters) (spends : List Float) : Float :=
  p.baseReward + p.transactionFactor * .ofNat spends.length +
    p.spendFactor * spends.foldl (· + ·) 0.0

namespace WeightedUsage

variable {w : WeightedUsage}

def schema : Query.Schema := ⟨.utf8, .int64, .float64⟩

def tablePlace : Place :=
  ["exports", "data", "subgraph=Qm", "table=prepaid_card_payment"]

def tenBlocks : Place :=
  tablePlace ++ ["partition_size=10", "start_partition=0", "end_partition=10", "data.parquet"]

def fiveBlocks : Place :=
  tablePlace ++ ["partition_size=5", "start_partition=10", "end_partition=15", "data.parquet"]

end WeightedUsage

end Rewards
