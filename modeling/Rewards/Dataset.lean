/-
Datasets: how exported tables are described and laid out.

A dataset is a directory.  Its description names the subgraph that it was exported
from and the partition sizes of each table, and a second file names the latest block
that has been exported.  The sizes of a table nest: each divides the next greater one,
so that a partition of a smaller size can start where one of a greater size ends.  A
partition lies in a directory whose path spells out the subgraph, the table, the size
and the two ends.

If one of the two files cannot be read this is an execution problem, and if it holds
something else it is a configuration problem.
-/
import Rewards.Files.Tree
import Rewards.Parameters
import Rewards.Partition
import Rewards.Yaml.Source

namespace Rewards

/-- How a table is exported. -/
structure TableConfig where
  partitionSizes : List UInt64
deriving DecidableEq

/-- The description of a dataset. -/
structure DatasetConfig where
  subgraph : String
  tables : Dictionary TableConfig
deriving DecidableEq

/-- How far a dataset has been exported. -/
structure LatestExport where
  latestBlock : Block
deriving DecidableEq

/-- The first two neighbours of a descending list of which the second does not divide the first. -/
def notNested? : List Nat → Option (Nat × Nat)
  | a :: b :: rest => if a % b = 0 then notNested? (b :: rest) else some (a, b)
  | _ => none

namespace DatasetConfig

/-- The export of a table, if its sizes nest. -/
def table (dataset : DatasetConfig) (table : String) : Outcome TableConfig :=
  match dataset.tables.get? table with
  | none =>
    .error (.configuration
      ("dataset for subgraph '" ++ dataset.subgraph ++ "' does not export table '" ++ table ++ "'"))
  | some config =>
    match Partition.usableSizes config.partitionSizes with
    | [] => .error (.configuration ("table '" ++ table ++ "' has no non-zero partition size"))
    | sizes =>
      match notNested? sizes with
      | some (greater, lesser) =>
        .error (.configuration
          ("table '" ++ table ++ "' partition size " ++ natText greater ++
            " is not a multiple of " ++ natText lesser))
      | none => .ok config

/-- The directory of a table. -/
def tableDirectory (dataset : DatasetConfig) (root table : String) : String :=
  Path.join (Path.join (Path.join root "data") ("subgraph=" ++ dataset.subgraph)) ("table=" ++ table)

/-- The file of a partition. -/
def partitionPath (dataset : DatasetConfig) (root table : String) (p : Partition) : String :=
  ["partition_size=" ++ natText p.size, "start_partition=" ++ natText p.start,
    "end_partition=" ++ natText p.stop, "data.parquet"].foldl Path.join
      (dataset.tableDirectory root table)

end DatasetConfig

/-- The export of a table as a JSON object. -/
def TableConfig.toJson (t : TableConfig) : Json :=
  .object [("partition_sizes", .array (t.partitionSizes.map fun n => .natural n.toNat))]

/-- A description as a JSON object. -/
def DatasetConfig.toJson (d : DatasetConfig) : Json :=
  .object [("subgraph", .text d.subgraph), ("tables", d.tables.toJson TableConfig.toJson)]

/-- The latest export as a JSON object. -/
def LatestExport.toJson (l : LatestExport) : Json :=
  .object [("latest_block", .natural l.latestBlock.toNat)]

open Shape

variable {m : Type → Type} [Monad m] {ν : Type} [Source m ν]

/-- The export of a table read from its field. -/
def TableConfig.read : ν → m TableConfig :=
  record "TableConfig" .lenient (mk <$> Fields.required "partition_sizes" (list word))

/-- A description read from its fields. -/
def DatasetConfig.read : ν → m DatasetConfig :=
  record "DatasetConfig" .lenient
    (mk <$> Fields.required "subgraph" Source.text
      <*> Fields.required "tables" (dictionary TableConfig.read))

/-- The latest export read from its field. -/
def LatestExport.read : ν → m LatestExport :=
  record "LatestExport" .lenient (mk <$> Fields.required "latest_block" word)

/-! ### The two files of a dataset -/

/-- The value of a shape that the file at a path holds. -/
def readDescription {α : Type} (shape : Yaml.Part → Yaml.Walk α) (tree : FileTree) (path : String) :
    Outcome α :=
  match tree.readText path with
  | .error obstacle => .error (.execution ("failed to read " ++ path) (.told obstacle.words))
  | .ok text =>
    match Yaml.read shape text with
    | .ok value => .ok value
    | .error sentence =>
      .error (.configuration (Yaml.explained ("invalid dataset file " ++ path) sentence))

/-- The description of the dataset in a directory. -/
def DatasetConfig.load (tree : FileTree) (root : String) : Outcome DatasetConfig :=
  readDescription DatasetConfig.read tree (Path.join root "config.yaml")

/-- How far the dataset in a directory has been exported. -/
def LatestExport.load (tree : FileTree) (root : String) : Outcome LatestExport :=
  readDescription LatestExport.read tree (Path.join root "latest.yaml")

end Rewards
