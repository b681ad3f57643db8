/-
The store of partitions: from a table and a range of blocks to files.

Each table has a location, which is a directory or a `file://` address of one.  The
two descriptions of the dataset there are read the first time that they are needed
and kept as a pair from then on; a dataset of which either cannot be read is not kept.
The files of a range are those of the partitions that the dataset exports for it, and
each of them has to exist.
-/
import Rewards.Dataset
import Rewards.Problem
import Rewards.Text.Form

namespace Rewards

/-- How the files of a table and a range are found, given the locations of all tables. -/
abbrev PartitionSource (σ : Type) :=
  Dictionary String → (table : String) → BlockRange → Action σ (List String)

/-- What a store knows of a dataset. -/
structure Dataset where
  config : DatasetConfig
  latest : LatestExport
deriving DecidableEq

/-- The dataset in a directory, its description read before its latest export. -/
def Dataset.load (tree : FileTree) (root : String) : Outcome Dataset := do
  let config ← DatasetConfig.load tree root
  let latest ← LatestExport.load tree root
  return ⟨config, latest⟩

/-- The datasets that have been read, by the components of the paths of their directories. -/
structure PartitionStore where
  loaded : List ((Bool × List String) × Dataset)
deriving DecidableEq

namespace PartitionStore

/-- A store that has read nothing yet. -/
def fresh : PartitionStore := ⟨[]⟩

/-- The dataset that has been read from a directory. -/
def dataset? (store : PartitionStore) (root : String) : Option Dataset :=
  store.loaded.lookup (Path.components root)

/-- The dataset in a directory, as it was when it was first read. -/
def dataset (tree : FileTree) (root : String) : Action PartitionStore Dataset := do
  match (← get).dataset? root with
  | some dataset => return dataset
  | none =>
    let dataset ← Action.ofOutcome (Dataset.load tree root)
    modify fun store => ⟨(Path.components root, dataset) :: store.loaded⟩
    return dataset

/-- What stands between the scheme of an address and the rest. -/
def schemeMark : List Char :=
  "://".toList

/-- The scheme of an address. -/
def scheme? : List Char → Option (List Char)
  | [] => none
  | c :: rest =>
    if schemeMark.isPrefixOf (c :: rest) then some [] else (scheme? rest).map (c :: ·)

/-- The directory that a location stands for. -/
def directory (location : String) : Outcome String :=
  let trimmed := Text.trimmed location
  if trimmed = "" then .error (.configuration "dataset location must not be empty")
  else if "file://".toList.isPrefixOf trimmed.toList then
    .ok (String.ofList (trimmed.toList.drop "file://".length))
  else
    match scheme? trimmed.toList with
    | some scheme =>
      .error (.configuration ("unsupported storage scheme '" ++ String.ofList scheme ++ "' in '" ++
        trimmed ++ "': use a local path"))
    | none => .ok trimmed

/-- The path of a partition's file from the root of the tree, if the file is there. -/
def existing (tree : FileTree) (path : String) : Outcome String :=
  match tree.canonicalPath path with
  | .ok found => .ok found
  | .error obstacle => .error (.execution ("partition file " ++ path) (.told obstacle.words))

/-- The files of some partitions of a table, each of which has to exist. -/
def filesOf (tree : FileTree) (config : DatasetConfig) (root table : String)
    (partitions : List Partition) : Outcome (List String) :=
  partitions.mapM fun p => existing tree (config.partitionPath root table p)

/-- The files of a table of a dataset that cover a range. -/
def files (tree : FileTree) (root table : String) (range : BlockRange) (dataset : Dataset) :
    Outcome (List String) := do
  let config ← dataset.config.table table
  match Partition.select range dataset.latest.latestBlock config.partitionSizes with
  | [] =>
    throw (.execution ("resolving partitions of '" ++ table ++ "'")
      (.told ("no complete partition covers " ++ range.text ++ " (latest exported block " ++
        wordText dataset.latest.latestBlock ++ ")")))
  | partitions => filesOf tree dataset.config root table partitions

/-- The location of a table. -/
def location (locations : Dictionary String) (table : String) : Outcome String :=
  match locations.get? table with
  | some location => .ok location
  | none => .error (.configuration ("no subgraph_config_location for table '" ++ table ++ "'"))

/-- The files of a table that cover a range, from the file tree as it is now. -/
def partitionFiles (tree : FileTree) : PartitionSource PartitionStore :=
  fun locations table range => do
    let root ← Action.ofOutcome (do directory (← location locations table))
    let dataset ← dataset tree root
    Action.ofOutcome (files tree root table range dataset)

end PartitionStore

end Rewards
