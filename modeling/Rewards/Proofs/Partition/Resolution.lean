/-
Which files a search for the files of a range finds, and why it may find none.

A search makes its checks one after the other: the location of the table, the two
descriptions of the dataset, the sizes of the table, the partitions of the range and the
file of each of them.  Where all of them pass, the files are there, one for each
partition and no two the same, since a file lies at a place whose last names spell out
the partition.  That no two are the same rests on trees having no symbolic links; the
partitions are different in any case.  Otherwise the first check that fails is the
problem, and whether it is one of the configuration or of the execution depends on the
check alone.
-/
import Rewards.Proofs.Dataset
import Rewards.Proofs.Files.Tables
import Rewards.Proofs.Partition.Location
import Rewards.Proofs.Partition.Paths
import Rewards.Proofs.Partition.Selection
import Rewards.Proofs.Partition.Store

namespace Rewards

namespace PartitionStore

/-! ### The checks of a search -/

/-- What a search checks, in this order. -/
inductive Check where
  | mapping
  | location
  | configFile
  | configText
  | latestFile
  | latestText
  | sizes
  | selection
  | partitionFile
deriving DecidableEq

/-- The kind of problem that it is if a check fails. -/
def Check.category : Check → Problem.Category
  | mapping | location | configText | latestText | sizes => .configuration
  | configFile | latestFile | selection | partitionFile => .execution

section

variable (tree : FileTree) (locations : Dictionary String) (table : String) (range : BlockRange)

/-- The location of the table stands for a directory. -/
def IsLocated (root : String) : Prop :=
  ∃ location, locations.get? table = some location ∧ Names (Text.trimmed location) root

/-- The two descriptions of a dataset are in a directory. -/
structure Holds (root : String) (dataset : Dataset) : Prop where
  config : Describes tree (Path.join root "config.yaml") DatasetConfig.read dataset.config
  latest : Describes tree (Path.join root "latest.yaml") LatestExport.read dataset.latest

/-- All checks pass. -/
structure Passes (root : String) (dataset : Dataset) (config : TableConfig) : Prop where
  located : IsLocated locations table root
  holds : Holds tree root dataset
  exports : dataset.config.Exports table config
  selects : Partition.select range dataset.latest.latestBlock config.partitionSizes ≠ []
  present : ∀ p ∈ Partition.select range dataset.latest.latestBlock config.partitionSizes,
    ∃ file, tree.canonicalPath (dataset.config.partitionPath root table p) = .ok file

/-- The first check that fails, when those before it pass, and the problem that this is. -/
inductive FirstFailure : Check → Problem → Prop
  | unmapped (h : locations.get? table = none) :
      FirstFailure .mapping
        (.configuration ("no subgraph_config_location for table '" ++ table ++ "'"))
  | empty {location : String} (hmapped : locations.get? table = some location)
      (h : Text.trimmed location = "") :
      FirstFailure .location (.configuration "dataset location must not be empty")
  | scheme {location : String} {scheme : List Char} (hmapped : locations.get? table = some location)
      (h : IsScheme scheme (Text.trimmed location).toList)
      (hother : ¬ fileMark <+: (Text.trimmed location).toList) :
      FirstFailure .location (.configuration ("unsupported storage scheme '" ++
        String.ofList scheme ++ "' in '" ++ Text.trimmed location ++ "': use a local path"))
  | configUnread {root : String} {obstacle : Obstacle} (hroot : IsLocated locations table root)
      (h : tree.readText (Path.join root "config.yaml") = .error obstacle) :
      FirstFailure .configFile (.execution ("failed to read " ++ Path.join root "config.yaml")
        (.told obstacle.words))
  | configMalformed {root text : String} {sentence : Option String}
      (hroot : IsLocated locations table root)
      (hread : tree.readText (Path.join root "config.yaml") = .ok text)
      (h : Yaml.read DatasetConfig.read text = .error sentence) :
      FirstFailure .configText (.configuration
        (Yaml.explained ("invalid dataset file " ++ Path.join root "config.yaml") sentence))
  | latestUnread {root : String} {config : DatasetConfig} {obstacle : Obstacle}
      (hroot : IsLocated locations table root)
      (hconfig : Describes tree (Path.join root "config.yaml") DatasetConfig.read config)
      (h : tree.readText (Path.join root "latest.yaml") = .error obstacle) :
      FirstFailure .latestFile (.execution ("failed to read " ++ Path.join root "latest.yaml")
        (.told obstacle.words))
  | latestMalformed {root text : String} {config : DatasetConfig} {sentence : Option String}
      (hroot : IsLocated locations table root)
      (hconfig : Describes tree (Path.join root "config.yaml") DatasetConfig.read config)
      (hread : tree.readText (Path.join root "latest.yaml") = .ok text)
      (h : Yaml.read LatestExport.read text = .error sentence) :
      FirstFailure .latestText (.configuration
        (Yaml.explained ("invalid dataset file " ++ Path.join root "latest.yaml") sentence))
  | notExported {root : String} {dataset : Dataset} (hroot : IsLocated locations table root)
      (hholds : Holds tree root dataset) (h : dataset.config.tables.get? table = none) :
      FirstFailure .sizes (.configuration ("dataset for subgraph '" ++ dataset.config.subgraph ++
        "' does not export table '" ++ table ++ "'"))
  | noSize {root : String} {dataset : Dataset} {config : TableConfig}
      (hroot : IsLocated locations table root) (hholds : Holds tree root dataset)
      (hget : dataset.config.tables.get? table = some config)
      (h : ∀ size ∈ config.partitionSizes, size = 0) :
      FirstFailure .sizes
        (.configuration ("table '" ++ table ++ "' has no non-zero partition size"))
  | gap {root : String} {dataset : Dataset} {config : TableConfig} {greater lesser : Nat}
      (hroot : IsLocated locations table root) (hholds : Holds tree root dataset)
      (hget : dataset.config.tables.get? table = some config)
      (h : IsFirstGap (Partition.usableSizes config.partitionSizes) greater lesser) :
      FirstFailure .sizes (.configuration ("table '" ++ table ++ "' partition size " ++
        natText greater ++ " is not a multiple of " ++ natText lesser))
  | nothingSelected {root : String} {dataset : Dataset} {config : TableConfig}
      (hroot : IsLocated locations table root) (hholds : Holds tree root dataset)
      (hexports : dataset.config.Exports table config)
      (h : Partition.select range dataset.latest.latestBlock config.partitionSizes = []) :
      FirstFailure .selection (.execution ("resolving partitions of '" ++ table ++ "'")
        (.told ("no complete partition covers " ++ range.text ++ " (latest exported block " ++
          wordText dataset.latest.latestBlock ++ ")")))
  | missing {root : String} {dataset : Dataset} {config : TableConfig} {p : Partition}
      {before after : List Partition} {obstacle : Obstacle}
      (hroot : IsLocated locations table root) (hholds : Holds tree root dataset)
      (hexports : dataset.config.Exports table config)
      (hselect : Partition.select range dataset.latest.latestBlock config.partitionSizes =
        before ++ p :: after)
      (hbefore : ∀ q ∈ before,
        ∃ file, tree.canonicalPath (dataset.config.partitionPath root table q) = .ok file)
      (h : tree.canonicalPath (dataset.config.partitionPath root table p) = .error obstacle) :
      FirstFailure .partitionFile
        (.execution ("partition file " ++ dataset.config.partitionPath root table p)
          (.told obstacle.words))

end

section

variable {tree : FileTree} {locations : Dictionary String} {table root : String}
  {range : BlockRange} {dataset : Dataset} {config : TableConfig} {problem : Problem}

/-- **The check alone says of which kind the problem is.** -/
theorem FirstFailure.category_eq {check : Check}
    (h : FirstFailure tree locations table range check problem) :
    problem.category = check.category := by
  cases h <;> rfl

/-! ### The steps of a search -/

theorem isLocated_iff :
    (do directory (← location locations table)) = .ok root ↔ IsLocated locations table root := by
  rw [Outcome.bind_eq_ok]
  unfold location IsLocated
  cases hget : locations.get? table with
  | none => simp
  | some found => simp [directory_eq_ok_iff]

theorem holds_iff : Dataset.load tree root = .ok dataset ↔ Holds tree root dataset := by
  unfold Dataset.load
  rw [Outcome.bind_eq_ok]
  constructor
  · rintro ⟨config, hconfig, h⟩
    obtain ⟨latest, hlatest, h⟩ := Outcome.bind_eq_ok.mp h
    cases h
    exact ⟨readDescription_eq_ok_iff.mp hconfig, readDescription_eq_ok_iff.mp hlatest⟩
  · intro h
    exact ⟨dataset.config, readDescription_eq_ok_iff.mpr h.config, Outcome.bind_eq_ok.mpr
      ⟨dataset.latest, readDescription_eq_ok_iff.mpr h.latest, rfl⟩⟩

/-- What a search from a fresh store comes to. -/
def search (tree : FileTree) (locations : Dictionary String) (table : String)
    (range : BlockRange) : Outcome (List String) := do
  let root ← (do directory (← location locations table))
  let dataset ← Dataset.load tree root
  files tree root table range dataset

theorem perform_partitionFiles_fresh :
    ((partitionFiles tree locations table range).perform fresh).1 =
      search tree locations table range := by
  unfold search
  cases hroot : (do directory (← location locations table) : Outcome String) with
  | error problem => rw [perform_partitionFiles_of_error hroot, Outcome.error_bind]
  | ok root =>
      have hnew : fresh.dataset? root = none := rfl
      rw [perform_partitionFiles_of_directory hroot (perform_dataset_of_new hnew), Outcome.ok_bind]

theorem existing_eq_ok_iff {path file : String} :
    existing tree path = .ok file ↔ tree.canonicalPath path = .ok file := by
  unfold existing
  cases tree.canonicalPath path with
  | error obstacle => simp
  | ok found => simp

theorem existing_eq_error_iff {path : String} :
    existing tree path = .error problem ↔ ∃ obstacle, tree.canonicalPath path = .error obstacle ∧
      problem = .execution ("partition file " ++ path) (.told obstacle.words) := by
  unfold existing
  cases tree.canonicalPath path with
  | error obstacle => simp [eq_comm]
  | ok found => simp

theorem files_of_exports (h : dataset.config.Exports table config)
    (hselect : Partition.select range dataset.latest.latestBlock config.partitionSizes ≠ []) :
    files tree root table range dataset = filesOf tree dataset.config root table
      (Partition.select range dataset.latest.latestBlock config.partitionSizes) := by
  rw [files, DatasetConfig.table_of_exports h, Outcome.ok_bind]
  split
  · rename_i hnil
    exact absurd hnil hselect
  · rfl

theorem files_of_select_nil (h : dataset.config.Exports table config)
    (hselect : Partition.select range dataset.latest.latestBlock config.partitionSizes = []) :
    files tree root table range dataset =
      .error (.execution ("resolving partitions of '" ++ table ++ "'")
        (.told ("no complete partition covers " ++ range.text ++ " (latest exported block " ++
          wordText dataset.latest.latestBlock ++ ")"))) := by
  rw [files, DatasetConfig.table_of_exports h, Outcome.ok_bind, hselect]
  rfl

theorem files_of_table_error (h : dataset.config.table table = .error problem) :
    files tree root table range dataset = .error problem := by
  rw [files, h, Outcome.error_bind]

/-! ### What a search comes to -/

theorem search_of_location_error
    (h : (do directory (← location locations table)) = (.error problem : Outcome String)) :
    search tree locations table range = .error problem := by
  rw [search, h, Outcome.error_bind]

/-- Once the location is found, a search goes on with the descriptions. -/
theorem search_of_located (h : IsLocated locations table root) :
    search tree locations table range =
      (Dataset.load tree root >>= files tree root table range) := by
  rw [search, isLocated_iff.mpr h, Outcome.ok_bind]

/-- Once the descriptions are read, a search goes on with the files. -/
theorem search_of_holds (hlocated : IsLocated locations table root)
    (hholds : Holds tree root dataset) :
    search tree locations table range = files tree root table range dataset := by
  rw [search_of_located hlocated, holds_iff.mpr hholds, Outcome.ok_bind]

/-- **A search finds files exactly if all checks pass, one for each selected partition.** -/
theorem search_eq_ok_iff {found : List String} :
    search tree locations table range = .ok found ↔
      ∃ root dataset config, Passes tree locations table range root dataset config ∧
        List.Forall₂ (fun p file =>
            tree.canonicalPath (dataset.config.partitionPath root table p) = .ok file)
          (Partition.select range dataset.latest.latestBlock config.partitionSizes) found := by
  constructor
  · intro h
    rw [search, Outcome.bind_eq_ok] at h
    obtain ⟨root, hroot, h⟩ := h
    obtain ⟨dataset, hdataset, h⟩ := Outcome.bind_eq_ok.mp h
    obtain ⟨config, hconfig, -⟩ := Outcome.bind_eq_ok.mp h
    have hexports := DatasetConfig.table_eq_ok_iff.mp hconfig
    by_cases hselect : Partition.select range dataset.latest.latestBlock config.partitionSizes = []
    · rw [files_of_select_nil hexports hselect] at h
      cases h
    · rw [files_of_exports hexports hselect, filesOf, Outcome.mapM_eq_ok] at h
      simp only [existing_eq_ok_iff] at h
      refine ⟨root, dataset, config, ⟨isLocated_iff.mp hroot, holds_iff.mp hdataset, hexports,
        hselect, fun p hp => ?_⟩, h⟩
      obtain ⟨i, hi, rfl⟩ := List.getElem_of_mem hp
      exact ⟨_, h.get hi (h.length_eq ▸ hi)⟩
  · rintro ⟨root, dataset, config, hpasses, hfound⟩
    rw [search_of_holds hpasses.located hpasses.holds,
      files_of_exports hpasses.exports hpasses.selects, filesOf, Outcome.mapM_eq_ok]
    simpa only [existing_eq_ok_iff] using hfound

/-- A search has the problem of the first check that fails. -/
theorem search_of_firstFailure {check : Check}
    (h : FirstFailure tree locations table range check problem) :
    search tree locations table range = .error problem := by
  cases h with
  | unmapped h =>
      refine search_of_location_error ?_
      rw [location, h]
      rfl
  | empty hmapped h =>
      refine search_of_location_error ?_
      rw [directory_of_mapped hmapped, directory_eq_error_iff]
      exact Or.inl ⟨h, rfl⟩
  | scheme hmapped h hother =>
      refine search_of_location_error ?_
      rw [directory_of_mapped hmapped, directory_eq_error_iff]
      exact Or.inr ⟨_, h, hother, rfl⟩
  | configUnread hroot h =>
      rw [search_of_located hroot, Dataset.load, DatasetConfig.load,
        readDescription_eq_error_iff.mpr (Or.inl ⟨_, h, rfl⟩), Outcome.error_bind,
        Outcome.error_bind]
  | configMalformed hroot hread h =>
      rw [search_of_located hroot, Dataset.load, DatasetConfig.load,
        readDescription_eq_error_iff.mpr (Or.inr ⟨_, _, hread, h, rfl⟩), Outcome.error_bind,
        Outcome.error_bind]
  | latestUnread hroot hconfig h =>
      rw [search_of_located hroot, Dataset.load, DatasetConfig.load,
        readDescription_eq_ok_iff.mpr hconfig, Outcome.ok_bind, LatestExport.load,
        readDescription_eq_error_iff.mpr (Or.inl ⟨_, h, rfl⟩), Outcome.error_bind,
        Outcome.error_bind]
  | latestMalformed hroot hconfig hread h =>
      rw [search_of_located hroot, Dataset.load, DatasetConfig.load,
        readDescription_eq_ok_iff.mpr hconfig, Outcome.ok_bind, LatestExport.load,
        readDescription_eq_error_iff.mpr (Or.inr ⟨_, _, hread, h, rfl⟩), Outcome.error_bind,
        Outcome.error_bind]
  | notExported hroot hholds h =>
      rw [search_of_holds hroot hholds]
      exact files_of_table_error (DatasetConfig.table_of_not_exported h)
  | noSize hroot hholds hget h =>
      rw [search_of_holds hroot hholds]
      exact files_of_table_error (DatasetConfig.table_of_all_zero hget h)
  | gap hroot hholds hget h =>
      rw [search_of_holds hroot hholds]
      exact files_of_table_error (DatasetConfig.table_of_gap hget h)
  | nothingSelected hroot hholds hexports h =>
      rw [search_of_holds hroot hholds]
      exact files_of_select_nil hexports h
  | missing hroot hholds hexports hselect hbefore h =>
      rw [search_of_holds hroot hholds, files_of_exports hexports (by rw [hselect]; simp), filesOf,
        Outcome.mapM_eq_error]
      refine ⟨_, _, _, hselect, fun q hq => ?_, existing_eq_error_iff.mpr ⟨_, h, rfl⟩⟩
      obtain ⟨file, hfile⟩ := hbefore q hq
      exact ⟨file, existing_eq_ok_iff.mpr hfile⟩

/-- A location that stands for no directory is the first failure. -/
theorem firstFailure_of_location
    (h : (do directory (← location locations table)) = (.error problem : Outcome String)) :
    ∃ check, FirstFailure tree locations table range check problem := by
  cases hget : locations.get? table with
  | none =>
      rw [location, hget] at h
      cases h
      exact ⟨_, .unmapped hget⟩
  | some found =>
      rw [directory_of_mapped hget, directory_eq_error_iff] at h
      rcases h with ⟨hempty, rfl⟩ | ⟨scheme, hscheme, hother, rfl⟩
      · exact ⟨_, .empty hget hempty⟩
      · exact ⟨_, .scheme hget hscheme hother⟩

/-- After the location, the first failure is that of a description that cannot be read. -/
theorem firstFailure_of_load (hlocated : IsLocated locations table root)
    (h : Dataset.load tree root = .error problem) :
    ∃ check, FirstFailure tree locations table range check problem := by
  rcases Outcome.bind_eq_error.mp h with h | ⟨config, hconfig, h⟩
  · rcases readDescription_eq_error_iff.mp h with
      ⟨obstacle, hread, rfl⟩ | ⟨text, sentence, hread, htext, rfl⟩
    · exact ⟨_, .configUnread hlocated hread⟩
    · exact ⟨_, .configMalformed hlocated hread htext⟩
  · have hdescribed := readDescription_eq_ok_iff.mp hconfig
    rcases Outcome.bind_eq_error.mp h with h | ⟨latest, -, h⟩
    · rcases readDescription_eq_error_iff.mp h with
        ⟨obstacle, hread, rfl⟩ | ⟨text, sentence, hread, htext, rfl⟩
      · exact ⟨_, .latestUnread hlocated hdescribed hread⟩
      · exact ⟨_, .latestMalformed hlocated hdescribed hread htext⟩
    · cases h

/-- After the descriptions, it is that of the sizes, of the selection or of a file. -/
theorem firstFailure_of_files (hlocated : IsLocated locations table root)
    (hholds : Holds tree root dataset)
    (h : files tree root table range dataset = .error problem) :
    ∃ check, FirstFailure tree locations table range check problem := by
  rcases dataset.config.exports_cases table with ⟨config, hexports⟩ | hnone |
    ⟨config, hget, hzero | ⟨greater, lesser, hgap⟩⟩
  · by_cases hselect :
      Partition.select range dataset.latest.latestBlock config.partitionSizes = []
    · rw [files_of_select_nil hexports hselect] at h
      cases h
      exact ⟨_, .nothingSelected hlocated hholds hexports hselect⟩
    · rw [files_of_exports hexports hselect, filesOf, Outcome.mapM_eq_error] at h
      obtain ⟨before, p, after, hsplit, hbefore, hp⟩ := h
      obtain ⟨obstacle, hmissing, rfl⟩ := existing_eq_error_iff.mp hp
      refine ⟨_, .missing hlocated hholds hexports hsplit (fun q hq => ?_) hmissing⟩
      obtain ⟨file, hfile⟩ := hbefore q hq
      exact ⟨file, existing_eq_ok_iff.mp hfile⟩
  · rw [files_of_table_error (DatasetConfig.table_of_not_exported hnone)] at h
    cases h
    exact ⟨_, .notExported hlocated hholds hnone⟩
  · rw [files_of_table_error (DatasetConfig.table_of_all_zero hget hzero)] at h
    cases h
    exact ⟨_, .noSize hlocated hholds hget hzero⟩
  · rw [files_of_table_error (DatasetConfig.table_of_gap hget hgap)] at h
    cases h
    exact ⟨_, .gap hlocated hholds hget hgap⟩

/-- If a search finds nothing, one of its checks is the first to fail. -/
theorem exists_firstFailure (h : search tree locations table range = .error problem) :
    ∃ check, FirstFailure tree locations table range check problem := by
  rw [search, Outcome.bind_eq_error] at h
  rcases h with hlocation | ⟨root, hroot, h⟩
  · exact firstFailure_of_location hlocation
  · have hlocated := isLocated_iff.mp hroot
    rcases Outcome.bind_eq_error.mp h with hload | ⟨dataset, hdataset, hfiles⟩
    · exact firstFailure_of_load hlocated hload
    · exact firstFailure_of_files hlocated (holds_iff.mp hdataset) hfiles

/-- Files for partitions: one for each, ascending, and no two the same. -/
structure AreFilesOf (tree : FileTree) (config : DatasetConfig) (root table : String)
    (partitions : List Partition) (found : List String) : Prop where
  /-- Each file is the one that the path of its partition leads to. -/
  resolved : List.Forall₂
    (fun p file => tree.canonicalPath (config.partitionPath root table p) = .ok file)
    partitions found
  absolute : ∀ file ∈ found, Path.isAbsolute file = true
  /-- The partitions come one after the other. -/
  ascending : partitions.Pairwise (fun p q => p.start < p.stop ∧ p.stop ≤ q.start)
  /-- No file is there twice, since no link makes one file of two paths. -/
  nodup : found.Nodup

theorem isAbsolute_of_canonicalPath {path file : String} (h : tree.canonicalPath path = .ok file) :
    Path.isAbsolute file = true := by
  unfold FileTree.canonicalPath at h
  cases hresolve : tree.resolve path with
  | error obstacle =>
      rw [hresolve] at h
      cases h
  | ok reached =>
      rw [hresolve] at h
      cases h
      exact Path.isAbsolute_ofPlace _

theorem areFilesOf_of_passes {found : List String}
    (hpasses : Passes tree locations table range root dataset config)
    (hfound : List.Forall₂
      (fun p file => tree.canonicalPath (dataset.config.partitionPath root table p) = .ok file)
      (Partition.select range dataset.latest.latestBlock config.partitionSizes) found) :
    AreFilesOf tree dataset.config root table
      (Partition.select range dataset.latest.latestBlock config.partitionSizes) found := by
  have hnested := (DatasetConfig.nested_of_table (DatasetConfig.table_of_exports hpasses.exports)).1
  obtain ⟨hascending, hpositive⟩ :=
    Partition.ascending_select hnested range dataset.latest.latestBlock
  have hpair := hascending.imp_of_mem fun {p _} hp _ hle =>
    (⟨hpositive p hp, hle⟩ : p.start < p.stop ∧ _)
  refine ⟨hfound, fun file hfile => ?_, hpair, ?_⟩
  · obtain ⟨i, hi, rfl⟩ := List.getElem_of_mem hfile
    exact isAbsolute_of_canonicalPath (hfound.get (hfound.length_eq ▸ hi) hi)
  · rw [List.Nodup, List.pairwise_iff_getElem]
    intro i j hi hj hlt
    have hip := hfound.length_eq ▸ hi
    have hjp := hfound.length_eq ▸ hj
    obtain ⟨hpos, hle⟩ := List.pairwise_iff_getElem.mp hpair i j hip hjp hlt
    exact DatasetConfig.file_ne_of_start_ne (Nat.ne_of_lt (Nat.lt_of_lt_of_le hpos hle))
      (hfound.get hip hi) (hfound.get hjp hj)

/-- Where all checks pass, there are files to find. -/
theorem exists_files_of_passes (h : Passes tree locations table range root dataset config) :
    ∃ found, search tree locations table range = .ok found := by
  cases hsearch : search tree locations table range with
  | ok found => exact ⟨found, rfl⟩
  | error problem =>
      rw [search_of_holds h.located h.holds, files_of_exports h.exports h.selects, filesOf,
        Outcome.mapM_eq_error] at hsearch
      obtain ⟨before, p, after, hsplit, -, hp⟩ := hsearch
      obtain ⟨file, hfile⟩ := h.present p (by rw [hsplit]; simp)
      rw [existing_eq_ok_iff.mpr hfile] at hp
      cases hp

/--
**A search finds files exactly if all of its checks pass, and otherwise the first one that
fails is the problem.**  What it finds is one file for each partition that is selected.
-/
theorem partitionFiles_fresh (tree : FileTree) (locations : Dictionary String) (table : String)
    (range : BlockRange) :
    ((∃ found, ((partitionFiles tree locations table range).perform fresh).1 = .ok found) ↔
      ∃ root dataset config, Passes tree locations table range root dataset config) ∧
    (∀ found, ((partitionFiles tree locations table range).perform fresh).1 = .ok found →
      ∃ root dataset config, Passes tree locations table range root dataset config ∧
        AreFilesOf tree dataset.config root table
          (Partition.select range dataset.latest.latestBlock config.partitionSizes) found) ∧
    (∀ problem, ((partitionFiles tree locations table range).perform fresh).1 = .error problem ↔
      ∃ check, FirstFailure tree locations table range check problem) ∧
    ∀ check problem, FirstFailure tree locations table range check problem →
      problem.category = check.category := by
  rw [perform_partitionFiles_fresh]
  refine ⟨⟨?_, ?_⟩, ?_, ?_, fun check problem => FirstFailure.category_eq⟩
  · rintro ⟨found, hfound⟩
    obtain ⟨root, dataset, config, hpasses, -⟩ := search_eq_ok_iff.mp hfound
    exact ⟨root, dataset, config, hpasses⟩
  · rintro ⟨root, dataset, config, hpasses⟩
    exact exists_files_of_passes hpasses
  · intro found hfound
    obtain ⟨root, dataset, config, hpasses, hfiles⟩ := search_eq_ok_iff.mp hfound
    exact ⟨root, dataset, config, hpasses, areFilesOf_of_passes hpasses hfiles⟩
  · intro problem
    refine ⟨exists_firstFailure, ?_⟩
    rintro ⟨check, hcheck⟩
    exact search_of_firstFailure hcheck

end

/-! ### A search that finds two files -/

/-- The description of a table that is exported at two sizes. -/
def exportedText : String :=
  "subgraph: Q\ntables:\n t:\n  partition_sizes: [5, 10]"

/-- What it describes, exported up to block 17. -/
def exportedDataset : Dataset :=
  ⟨⟨"Q", Dictionary.empty.insert "t" ⟨[5, 10]⟩⟩, ⟨17⟩⟩

def tenBlocks : Place :=
  ["d", "data", "subgraph=Q", "table=t", "partition_size=10", "start_partition=0",
    "end_partition=10", "data.parquet"]

def fiveBlocks : Place :=
  ["d", "data", "subgraph=Q", "table=t", "partition_size=5", "start_partition=10",
    "end_partition=15", "data.parquet"]

/-- A tree with the dataset, of whose partitions it has two. -/
def exportedTree : FileTree where
  workingDirectory := []
  nodes :=
    [(["d", "config.yaml"], .ofText exportedText),
      (["d", "latest.yaml"], .ofText "latest_block: 17"),
      (tenBlocks, .file (.table [])), (fiveBlocks, .file (.table []))] ++
    tenBlocks.dropLast.inits.map (·, .directory) ++
    fiveBlocks.dropLast.inits.map (·, .directory)

/-- The address of the dataset, between blanks. -/
def exportedLocations : Dictionary String :=
  Dictionary.empty.insert "t" " file:///d "

/-- The blocks from 7 to 14 are found in a file of ten blocks and one of five. -/
theorem partitionFiles_fresh_two_sizes :
    let found := [Path.ofPlace tenBlocks, Path.ofPlace fiveBlocks]
    ((partitionFiles exportedTree exportedLocations "t" ⟨7, 14⟩).perform fresh).1 = .ok found ∧
      ∃ root dataset config,
        Passes exportedTree exportedLocations "t" ⟨7, 14⟩ root dataset config ∧
        AreFilesOf exportedTree dataset.config root "t"
          (Partition.select ⟨7, 14⟩ dataset.latest.latestBlock config.partitionSizes) found := by
  intro found
  have hselect : Partition.select ⟨7, 14⟩ exportedDataset.latest.latestBlock [5, 10] =
      [⟨10, 0, 10⟩, ⟨5, 10, 15⟩] := rfl
  have hten : exportedTree.canonicalPath
      (exportedDataset.config.partitionPath "/d" "t" ⟨10, 0, 10⟩) = .ok (Path.ofPlace tenBlocks) :=
    rfl
  have hfive : exportedTree.canonicalPath
      (exportedDataset.config.partitionPath "/d" "t" ⟨5, 10, 15⟩) = .ok (Path.ofPlace fiveBlocks) :=
    rfl
  have hconfigFile : exportedTree.resolve (Path.join "/d" "config.yaml") =
      .ok (["d", "config.yaml"], .ofText exportedText) := rfl
  have hlatestFile : exportedTree.resolve (Path.join "/d" "latest.yaml") =
      .ok (["d", "latest.yaml"], .ofText "latest_block: 17") := rfl
  have hholds : Holds exportedTree "/d" exportedDataset :=
    ⟨⟨_, FileTree.readText_of_resolve hconfigFile, rfl⟩,
      ⟨_, FileTree.readText_of_resolve hlatestFile, rfl⟩⟩
  have hpasses : Passes exportedTree exportedLocations "t" ⟨7, 14⟩ "/d" exportedDataset
      ⟨[5, 10]⟩ := by
    refine ⟨⟨" file:///d ", rfl, .address "/d"⟩, hholds, DatasetConfig.table_eq_ok_iff.mp rfl,
      ?_, ?_⟩
    · rw [hselect]
      exact List.cons_ne_nil _ _
    · rw [hselect, List.forall_mem_cons, List.forall_mem_singleton]
      exact ⟨⟨_, hten⟩, ⟨_, hfive⟩⟩
  have hfound : ((partitionFiles exportedTree exportedLocations "t" ⟨7, 14⟩).perform fresh).1 =
      .ok found := by
    rw [perform_partitionFiles_fresh, search_eq_ok_iff]
    refine ⟨"/d", exportedDataset, ⟨[5, 10]⟩, hpasses, ?_⟩
    rw [hselect]
    exact .cons hten (.cons hfive .nil)
  exact ⟨hfound, (partitionFiles_fresh _ _ _ _).2.1 found hfound⟩

end PartitionStore

end Rewards
