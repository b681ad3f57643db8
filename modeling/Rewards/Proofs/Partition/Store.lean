/-
Finding the files of a range.

Once a store has the dataset of a table, the files of a range are those of the partitions
that are selected for it, in their order; they are found if each of them is there, and
without a partition the search is an execution problem.
-/
import Mathlib
import Rewards.Partition.Store
import Rewards.Proofs.Action
import Rewards.Proofs.Outcome

namespace Rewards.PartitionStore

variable {tree : FileTree} {locations : Dictionary String} {location root table : String}
  {dataset : Dataset} {config : TableConfig} {range : BlockRange} {store after : PartitionStore}

/-! ### Datasets that are known -/

/-- The store with one more dataset. -/
def keep (store : PartitionStore) (root : String) (dataset : Dataset) : PartitionStore :=
  ⟨(Path.components root, dataset) :: store.loaded⟩

/-- A dataset that is known is not read. -/
theorem perform_dataset_of_known (h : store.dataset? root = some dataset) :
    (PartitionStore.dataset tree root).perform store = (.ok dataset, store) := by
  rw [PartitionStore.dataset, Action.perform_get_bind]
  simp only [h]
  rfl

/-- A dataset that is not known is read, and known from then on if it can be. -/
theorem perform_dataset_of_new (h : store.dataset? root = none) :
    (PartitionStore.dataset tree root).perform store =
      (Dataset.load tree root,
        (Dataset.load tree root).toOption.elim store (store.keep root)) := by
  rw [PartitionStore.dataset, Action.perform_get_bind]
  simp only [h]
  cases Dataset.load tree root with
  | error problem => rfl
  | ok dataset => rfl

/-! ### Looking for files -/

/-- A table that is mapped has the directory of its location, if that has one. -/
theorem directory_of_mapped (h : locations.get? table = some location) :
    (do directory (← PartitionStore.location locations table)) = directory location := by
  have hlocation : PartitionStore.location locations table = .ok location := by
    rw [PartitionStore.location, h]
  rw [hlocation, Outcome.ok_bind]

/-- Without a directory the store is left as it is. -/
theorem perform_partitionFiles_of_error {problem : Problem}
    (h : (do directory (← PartitionStore.location locations table)) =
      (.error problem : Outcome String)) :
    (partitionFiles tree locations table range).perform store = (.error problem, store) := by
  show (Action.ofOutcome (do directory (← PartitionStore.location locations table)) >>= _).perform
    store = _
  rw [h, Action.perform_bind_of_error (Action.perform_ofOutcome _ store)]

/-- Files are looked for in the dataset that the store has or reads. -/
theorem perform_partitionFiles_of_directory {outcome : Outcome Dataset}
    (h : (do directory (← PartitionStore.location locations table)) = .ok root)
    (hdataset : (PartitionStore.dataset tree root).perform store = (outcome, after)) :
    (partitionFiles tree locations table range).perform store =
      (outcome >>= files tree root table range, after) := by
  show (Action.ofOutcome (do directory (← PartitionStore.location locations table)) >>= _).perform
    store = _
  rw [h, Action.perform_bind_of_ok (Action.perform_ofOutcome _ store)]
  cases outcome with
  | ok dataset => rw [Action.perform_bind_of_ok hdataset]; rfl
  | error problem => rw [Action.perform_bind_of_error hdataset]; rfl

end Rewards.PartitionStore
