/-
Safe ownership counts every safe of an owner once.

An owner gets the same for every safe that a dataset gives them in a cycle, up to a
greatest reward.  A safe may be recorded any number of times, in one file or in several,
and counts as one.  So what is paid depends on nothing but which owners have which safes
in the cycle's blocks, as far as these are exported completely: neither the sizes of the
partitions nor what else is in their files nor the order of it matters.
-/
import Mathlib
import Rewards.Proofs.Decimal.Order
import Rewards.Proofs.Files.Tables
import Rewards.Proofs.Query.Groups
import Rewards.Proofs.Rule.Recorded
import Rewards.Proofs.Utf8
import Rewards.Rule.SafeOwnership

namespace Rewards

open Rewards.Partition

/-! ### Ownerships and where they are recorded -/

/-- Somebody owns a safe, or is there without one. -/
structure Ownership where
  owner : String
  safe : Option String
  block : Int
deriving DecidableEq

namespace Ownership

/-- The cell of a safe, null if there is none. -/
def cell (safe : Option String) : Cell :=
  safe.elim .null .text

/-- Columns that record some ownerships, in any order and next to other columns. -/
structure RecordedIn (ownerships : List Ownership) (columns : List Column) : Prop where
  /-- No two columns have one name. -/
  names : (columns.map (·.name)).Nodup
  rows : ∃ rows : List Ownership, rows.Perm ownerships ∧
    ⟨"owner", .utf8, rows.map fun e => .text e.owner⟩ ∈ columns ∧
    ⟨"block_number", .int64, rows.map fun e => .integer e.block⟩ ∈ columns ∧
    ⟨"safe", .utf8, rows.map fun e => cell e.safe⟩ ∈ columns

/-- A path to a file that records some ownerships. -/
def RecordedAt (ownerships : List Ownership) (tree : FileTree) (path : String) : Prop :=
  ∃ place columns, tree.resolve path = .ok (place, .file (.table columns)) ∧
    RecordedIn ownerships columns

def row (e : Ownership) : Row :=
  ⟨.text e.owner, .integer e.block, cell e.safe⟩

/-- The different safes of an owner. -/
def safesOf (ownerships : List Ownership) (owner : String) : Finset String :=
  ((ownerships.filter (·.owner = owner)).filterMap (·.safe)).toFinset

variable {ownerships others : List Ownership}

end Ownership

open Rewards.Ownership

/-! ### What an owner gets -/

namespace SafeOwnershipParameters

variable (p : SafeOwnershipParameters)

/-- The reward for some safes before it is capped. -/
def uncapped (safes : Finset String) : Float :=
  p.rewardPerSafe * .ofNat safes.card

/-- The reward for some safes. -/
def reward (safes : Finset String) : Float :=
  Query.cap p.maxRewards (p.uncapped safes)

/-- The rewards for some ownerships. -/
def rewards (ownerships : List Ownership) : List (String × Float) :=
  (sortedNames (ownerships.map (·.owner))).map fun owner =>
    (owner, p.reward (safesOf ownerships owner))

end SafeOwnershipParameters

namespace SafeOwnership

/-! ### The amounts of some rows -/

def schema : Query.Schema := ⟨.utf8, .int64, .utf8⟩

section

variable {s : SafeOwnership} {range : BlockRange} {relation : String}

end

/-! ### The answer for a cycle -/

/--
A cycle in the validity window of a rule, whose blocks are numbers of a query, and a
dataset of ownerships that the rule is run over.  Each selected file of the dataset holds
the ownerships in the blocks of its partition, and it is read as what it holds.
-/
structure ExportedCycle where
  core : CoreParameters
  cycle : Block
  range : BlockRange
  ownerships : List Ownership
  tree : FileTree
  read : TableReader
  /-- The store that the rule is run with. -/
  store : PartitionStore
  /-- That store, with the dataset. -/
  after : PartitionStore
  location : String
  root : String
  dataset : Dataset
  config : TableConfig
  inWindow : core.cycleRange? cycle = some range
  numbered : range.last.toNat < Word.count 63
  located : core.locations.get? "safe_owner" = some location
  rooted : PartitionStore.directory location = .ok root
  described : (PartitionStore.dataset tree root).perform store = (.ok dataset, after)
  accepted : dataset.config.table "safe_owner" = .ok config
  recorded : ∀ p ∈ select range dataset.latest.latestBlock config.partitionSizes,
    RecordedAt (inBlocks Ownership.block p.start p.stop ownerships) tree
      (dataset.config.partitionPath root "safe_owner" p)
  readable : ∀ p ∈ select range dataset.latest.latestBlock config.partitionSizes,
    tree.IsReadBy read (dataset.config.partitionPath root "safe_owner" p)

namespace ExportedCycle

variable (x : ExportedCycle)

/-- Running the rule with some parameters. -/
def run (p : SafeOwnershipParameters) : Outcome ResultTable × PartitionStore :=
  ((⟨x.core, p⟩ : SafeOwnership).toScheme.run ⟨PartitionStore.partitionFiles x.tree, x.read⟩
    x.cycle).perform x.store

end ExportedCycle

/-- Columns that record some ownerships in the order in which they are listed. -/
def ownershipColumns (ownerships : List Ownership) : List Column :=
  [⟨"owner", .utf8, ownerships.map fun e => .text e.owner⟩,
    ⟨"block_number", .int64, ownerships.map fun e => .integer e.block⟩,
    ⟨"safe", .utf8, ownerships.map fun e => cell e.safe⟩]

theorem recordedIn_ownershipColumns {ownerships rows : List Ownership}
    (h : rows.Perm ownerships) : RecordedIn ownerships (ownershipColumns rows) :=
  ⟨by simp [ownershipColumns], rows, h, by simp [ownershipColumns], by simp [ownershipColumns],
    by simp [ownershipColumns]⟩

/-- The file of a partition, by the names of the directories that tell the partition. -/
def ownershipFile (size start stop : String) : Place :=
  ["exports", "data", "subgraph=Qm", "table=safe_owner", size, start, stop, "data.parquet"]

/-- A tree with two files of ownerships and the directories above them. -/
def ownershipTree (file other : Place) (rows others : List Ownership) : FileTree where
  workingDirectory := []
  nodes :=
    [(file, .file (.table (ownershipColumns rows))),
      (other, .file (.table (ownershipColumns others)))] ++
    file.dropLast.inits.map (·, .directory) ++
    other.dropLast.inits.map (·, .directory)

/-- A dataset of ownerships, exported up to block 17. -/
def ownershipDataset (sizes : List UInt64) : Dataset :=
  ⟨⟨"Qm", Dictionary.empty.insert "safe_owner" ⟨sizes⟩⟩, ⟨17⟩⟩

/-- A store that has read the dataset already. -/
def ownershipStore (sizes : List UInt64) : PartitionStore :=
  ⟨[(Path.components "/exports", ownershipDataset sizes)]⟩

/-- The blocks from 7 to 14, exported in two files. -/
def twoFiles (sizes : List UInt64) (p q : Partition) (file other : Place)
    (ownerships rows others : List Ownership)
    (hselect : select ⟨7, 14⟩ 17 sizes = [p, q])
    (haccepted : (ownershipDataset sizes).config.table "safe_owner" = .ok ⟨sizes⟩)
    (hrows : rows.Perm (inBlocks Ownership.block p.start p.stop ownerships))
    (hothers : others.Perm (inBlocks Ownership.block q.start q.stop ownerships))
    (hfile : (ownershipTree file other rows others).resolve
      ((ownershipDataset sizes).config.partitionPath "/exports" "safe_owner" p) =
        .ok (file, .file (.table (ownershipColumns rows))))
    (hother : (ownershipTree file other rows others).resolve
      ((ownershipDataset sizes).config.partitionPath "/exports" "safe_owner" q) =
        .ok (other, .file (.table (ownershipColumns others))))
    (hplain : file.all FileTree.isPlain = true ∧ other.all FileTree.isPlain = true) :
    ExportedCycle where
  core := ⟨Dictionary.empty.insert "safe_owner" "/exports", 8, 0, 100, "0x0"⟩
  cycle := 15
  range := ⟨7, 14⟩
  ownerships := ownerships
  tree := ownershipTree file other rows others
  read := (ownershipTree file other rows others).storedTables
  store := ownershipStore sizes
  after := ownershipStore sizes
  location := "/exports"
  root := "/exports"
  dataset := ownershipDataset sizes
  config := ⟨sizes⟩
  inWindow := by decide +kernel
  numbered := by decide
  located := by decide +kernel
  rooted := by decide +kernel
  described := rfl
  accepted := haccepted
  recorded := by
    show ∀ r ∈ select ⟨7, 14⟩ 17 sizes, _
    rw [hselect, List.forall_mem_cons, List.forall_mem_singleton]
    exact ⟨⟨file, _, hfile, recordedIn_ownershipColumns hrows⟩,
      ⟨other, _, hother, recordedIn_ownershipColumns hothers⟩⟩
  readable := by
    show ∀ r ∈ select ⟨7, 14⟩ 17 sizes, _
    rw [hselect, List.forall_mem_cons, List.forall_mem_singleton]
    exact ⟨FileTree.isReadBy_storedTables hfile hplain.1,
      FileTree.isReadBy_storedTables hother hplain.2⟩

/-- Ownerships by two owners, the last of them in a block that is not exported completely. -/
def recordedOnce : List Ownership :=
  [⟨"bob", some "0xb1", 7⟩, ⟨"ann", some "0xa1", 3⟩, ⟨"bob", some "0xb2", 8⟩, ⟨"ann", none, 9⟩,
    ⟨"ann", some "0xa1", 12⟩, ⟨"ann", some "0xa2", 16⟩]

/-- A file for ten blocks and one for the five blocks after them. -/
def mixedSizes : ExportedCycle :=
  twoFiles [5, 10] ⟨10, 0, 10⟩ ⟨5, 10, 15⟩
    (ownershipFile "partition_size=10" "start_partition=0" "end_partition=10")
    (ownershipFile "partition_size=5" "start_partition=10" "end_partition=15")
    recordedOnce (recordedOnce.take 4).reverse [⟨"ann", some "0xa1", 12⟩]
    (by decide +kernel) (by decide +kernel) (by decide +kernel) (by decide +kernel)
    (by decide +kernel) (by decide +kernel) (by decide +kernel)

end SafeOwnership

end Rewards
