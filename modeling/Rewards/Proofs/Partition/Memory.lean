/-
What a store of partitions remembers.

A store is asked for files again and again, and the files may change in between.  What it
keeps of a dataset is the pair of descriptions that the first search read which could read
both; a search that cannot read one of them leaves no trace, and one that fails later does
not take back what it has read.  All else a search sees as it is at the time, so it comes to
what it would come to with a fresh store, but for a pair that has been kept.

One search is taken apart into its four cases (`Search.Step`); what it answers and what the
store knows afterwards are read off them, and the history of a store follows by adding one
search at its end.
-/
import Rewards.Proofs.Files.Components
import Rewards.Proofs.Partition.Resolution

namespace Rewards

namespace PartitionStore

/-! ### One search -/

/-- A search for files: the file tree as it is at the time, and what is searched for. -/
structure Search where
  tree : FileTree
  locations : Dictionary String
  table : String
  range : BlockRange

namespace Search

/-- The directory of the table. -/
def root (s : Search) : Outcome String := do
  directory (← location s.locations s.table)

/-- Search with a store: what is found, and the store afterwards. -/
def perform (s : Search) (store : PartitionStore) : Outcome (List String) × PartitionStore :=
  (partitionFiles s.tree s.locations s.table s.range).perform store

/-- What a search comes to if some datasets are known, which it does not read. -/
def answer (known : String → Option Dataset) (s : Search) : Outcome (List String) := do
  let root ← s.root
  let dataset ← (known root).elim (Dataset.load s.tree root) .ok
  files s.tree root s.table s.range dataset

/-- The dataset in a directory, if the search is one in it and can read both descriptions. -/
def reads? (s : Search) (root : String) : Option Dataset :=
  match s.root with
  | .error _ => none
  | .ok own =>
    if Path.components own = Path.components root then (Dataset.load s.tree own).toOption else none

/-- What a search can do with a store: its answer, and the store afterwards. -/
inductive Step (s : Search) (store : PartitionStore) :
    Outcome (List String) → PartitionStore → Prop
  | unlocated {problem : Problem} (h : s.root = .error problem) :
      Step s store (.error problem) store
  | known {root : String} {dataset : Dataset} (hroot : s.root = .ok root)
      (h : store.dataset? root = some dataset) :
      Step s store (files s.tree root s.table s.range dataset) store
  | unread {root : String} {problem : Problem} (hroot : s.root = .ok root)
      (hnew : store.dataset? root = none) (h : Dataset.load s.tree root = .error problem) :
      Step s store (.error problem) store
  | read {root : String} {dataset : Dataset} (hroot : s.root = .ok root)
      (hnew : store.dataset? root = none) (h : Dataset.load s.tree root = .ok dataset) :
      Step s store (files s.tree root s.table s.range dataset) (store.keep root dataset)

/-- A search does one of the four. -/
theorem step (s : Search) (store : PartitionStore) :
    s.Step store (s.perform store).1 (s.perform store).2 := by
  unfold perform
  cases hroot : s.root with
  | error problem =>
      rw [perform_partitionFiles_of_error hroot]
      exact .unlocated hroot
  | ok root =>
      cases hknown : store.dataset? root with
      | some dataset =>
          rw [perform_partitionFiles_of_directory hroot (perform_dataset_of_known hknown)]
          exact .known hroot hknown
      | none =>
          rw [perform_partitionFiles_of_directory hroot (perform_dataset_of_new hknown)]
          cases hload : Dataset.load s.tree root with
          | error problem => exact .unread hroot hknown hload
          | ok dataset => exact .read hroot hknown hload

variable {s : Search} {store after : PartitionStore} {found : Outcome (List String)}
  {dataset : Dataset} {problem : Problem} {root : String}

theorem reads?_of_root {own : String} (h : s.root = .ok own) (root : String) :
    s.reads? root = if Path.components own = Path.components root then
      (Dataset.load s.tree own).toOption else none := by
  rw [reads?, h]

/-- **A search answers by what the store knows and by the files as they are.** -/
theorem Step.found_eq (h : s.Step store found after) : found = s.answer store.dataset? := by
  cases h with
  | unlocated h => rw [answer, h, Outcome.error_bind]
  | known hroot h => rw [answer, hroot, Outcome.ok_bind, h, Option.elim_some, Outcome.ok_bind]
  | unread hroot hnew h =>
      rw [answer, hroot, Outcome.ok_bind, hnew, Option.elim_none, h, Outcome.error_bind]
  | read hroot hnew h =>
      rw [answer, hroot, Outcome.ok_bind, hnew, Option.elim_none, h, Outcome.ok_bind]

/-- **Afterwards the store knows what it knew, and what the search could read besides.** -/
theorem Step.dataset?_eq (h : s.Step store found after) (root : String) :
    after.dataset? root = (store.dataset? root).or (s.reads? root) := by
  cases h with
  | unlocated h => rw [reads?, h, Option.or_none]
  | @known own dataset hroot h =>
      by_cases hsame : Path.components own = Path.components root
      · have hroot : store.dataset? root = some dataset := by
          rw [dataset?, ← hsame]
          exact h
        rw [hroot, Option.some_or]
      · rw [reads?_of_root hroot, if_neg hsame, Option.or_none]
  | @unread own problem hroot hnew h =>
      rw [reads?_of_root hroot, h]
      split_ifs <;> exact Option.or_none.symm
  | @read own dataset hroot hnew h =>
      rw [reads?_of_root hroot, h, dataset?, keep, List.lookup_cons]
      by_cases hsame : Path.components own = Path.components root
      · have hnone : store.dataset? root = none := by
          rw [dataset?, ← hsame]
          exact hnew
        rw [hnone, if_pos hsame, hsame, beq_self_eq_true]
        rfl
      · rw [if_neg hsame, Option.or_none, beq_false_of_ne fun h => hsame h.symm]
        rfl

/-- A search that cannot read both descriptions leaves the store as it is. -/
theorem Step.after_eq (h : s.Step store found after)
    (hproblem : (s.root >>= Dataset.load s.tree) = .error problem) : after = store := by
  cases h with
  | unlocated => rfl
  | known => rfl
  | unread => rfl
  | read hroot hnew h =>
      rw [hroot, Outcome.ok_bind, h] at hproblem
      cases hproblem

end Search

/-! ### Searches one after the other -/

/-- The store after some searches, fresh before the first one. -/
def after (searches : List Search) : PartitionStore :=
  searches.foldl (fun store s => (s.perform store).2) fresh

/-- The dataset in a directory as the first search read it that could read both descriptions. -/
def firstRead (searches : List Search) (root : String) : Option Dataset :=
  searches.findSome? (·.reads? root)

theorem after_concat (searches : List Search) (s : Search) :
    after (searches ++ [s]) = (s.perform (after searches)).2 := by
  rw [after, List.foldl_append]
  rfl

theorem firstRead_concat (searches : List Search) (s : Search) (root : String) :
    firstRead (searches ++ [s]) root = (firstRead searches root).or (s.reads? root) := by
  rw [firstRead, List.findSome?_append, List.findSome?_singleton]
  rfl

/-- **A store knows of each dataset what was read first.** -/
theorem dataset?_after (searches : List Search) (root : String) :
    (after searches).dataset? root = firstRead searches root := by
  induction searches using List.reverseRecOn with
  | nil => rfl
  | append_singleton searches s ih =>
      rw [after_concat, (s.step _).dataset?_eq, ih, firstRead_concat]

/-- A dataset can be read by every path of its directory. -/
theorem Holds.of_components_eq {tree : FileTree} {root other : String} {dataset : Dataset}
    (h : Holds tree root dataset) (hsame : Path.components root = Path.components other) :
    Holds tree other dataset := by
  obtain ⟨⟨config, hconfig, hvalue⟩, ⟨latest, hlatest, hblock⟩⟩ := h
  have hname : ∀ name ∈ ["config.yaml", "latest.yaml"], Path.IsName name := by
    simp only [List.forall_mem_cons, List.not_mem_nil, false_imp_iff, implies_true, and_true]
    exact ⟨⟨by decide, by decide, by decide, by decide⟩, ⟨by decide, by decide, by decide, by decide⟩⟩
  rw [FileTree.readText_join_eq hsame (hname _ (by simp))] at hconfig
  rw [FileTree.readText_join_eq hsame (hname _ (by simp))] at hlatest
  exact ⟨⟨config, hconfig, hvalue⟩, ⟨latest, hlatest, hblock⟩⟩

/-- What was read first, of a tree that has not changed since, can still be read. -/
theorem load_of_firstRead {searches : List Search} {tree : FileTree} {root : String}
    {dataset : Dataset} (htree : ∀ s ∈ searches, s.tree = tree)
    (h : firstRead searches root = some dataset) : Dataset.load tree root = .ok dataset := by
  obtain ⟨s, hs, hreads⟩ := List.exists_of_findSome?_eq_some h
  unfold Search.reads? at hreads
  split at hreads
  · cases hreads
  · rename_i own hown
    split_ifs at hreads with hsame
    rw [htree s hs] at hreads
    cases hload : Dataset.load tree own with
    | error problem =>
        rw [hload] at hreads
        cases hreads
    | ok read =>
        rw [hload] at hreads
        obtain rfl := Option.some.inj hreads
        exact holds_iff.mpr ((holds_iff.mp hload).of_components_eq hsame)

/-- Over a tree that has not changed a search comes to what it comes to with a fresh store. -/
theorem answer_firstRead {searches : List Search} {s : Search}
    (htree : ∀ e ∈ searches, e.tree = s.tree) :
    s.answer (firstRead searches) = s.answer fun _ => none := by
  unfold Search.answer
  congr 1
  funext root
  cases hread : firstRead searches root with
  | none => rfl
  | some dataset => rw [Option.elim_none, load_of_firstRead htree hread]; rfl

/--
**What a store remembers is what was read first, and it makes no other difference.**  After
any searches, in trees that may have changed from one to the next, a search comes to what a
fresh store finds, but that it takes a dataset of which the two descriptions have been read
as it was when both were read for the first time.  The store then knows this dataset as well,
whatever the search came to; it is left as it is if the search cannot read both descriptions.
In a tree that has not changed every search comes to what a fresh store finds.
-/
theorem remembers_first_read (searches : List Search) (s : Search) :
    (s.perform fresh).1 = s.answer (fun _ => none) ∧
    (s.perform (after searches)).1 = s.answer (firstRead searches) ∧
    (∀ root, (s.perform (after searches)).2.dataset? root =
      (firstRead searches root).or (s.reads? root)) ∧
    (∀ problem, (s.root >>= Dataset.load s.tree) = .error problem →
      (s.perform (after searches)).2 = after searches) ∧
    ((∀ e ∈ searches, e.tree = s.tree) → (s.perform (after searches)).1 = (s.perform fresh).1) := by
  have hknown : (after searches).dataset? = firstRead searches := funext (dataset?_after searches)
  have hfresh : (s.perform fresh).1 = s.answer fun _ => none := (s.step fresh).found_eq
  have hfound : (s.perform (after searches)).1 = s.answer (firstRead searches) := by
    rw [(s.step _).found_eq, hknown]
  refine ⟨hfresh, hfound, fun root => ?_, fun problem => (s.step _).after_eq, fun htree => ?_⟩
  · rw [(s.step _).dataset?_eq, hknown]
  · rw [hfound, answer_firstRead htree, hfresh]

/-- A tree with a dataset, of which the latest export may be missing. -/
def exportTree (latest : Option String) : FileTree where
  workingDirectory := []
  nodes :=
    [(["d"], .directory),
      (["d", "config.yaml"], .file (.bytes
        "subgraph: Q\ntables: \x7bt: \x7bpartition_sizes: [10]\x7d\x7d\n".toUTF8.toList))] ++
    latest.toList.map fun text => (["d", "latest.yaml"], .file (.bytes text.toUTF8.toList))

/-- A search in the tree, by some path of the dataset. -/
def searchIn (latest : Option String) (root : String) : Search :=
  ⟨exportTree latest, Dictionary.ofList [("t", root)], "t", ⟨0, 9⟩⟩

-- the first search cannot read the latest export, and the third one no longer looks at it
example : firstRead [searchIn none "/d", searchIn (some "latest_block: 5") "/d/",
    searchIn (some "latest_block: 7") "//d"] "/d" =
      some ⟨⟨"Q", Dictionary.ofList [("t", ⟨[10]⟩)]⟩, ⟨5⟩⟩ := by
  decide +kernel

end PartitionStore

end Rewards
