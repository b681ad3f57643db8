/-
Groups of rows, and the table of their amounts.

Each payee of some rows makes one group, and the groups come in the order of their
payees.  The payees of the tables that rules read are texts, so what is proved here is
about rows that are made of things with a name: their groups are those of the names.
-/
import Rewards.Proofs.Distinct
import Rewards.Proofs.Outcome
import Rewards.Query.Evaluation

namespace Rewards

/-! ### Names in order -/

/-- Names, each once, sorted by code points. -/
def sortedNames (names : List String) : List String :=
  (distinct names).mergeSort (fun s t => s ≤ t)

/-- Things with different names are sorted into a strict order of their names. -/
theorem pairwise_lt_mergeSort {α : Type} {name : α → String} {l : List α}
    (hnodup : (l.map name).Nodup) :
    (l.mergeSort fun a b => name a ≤ name b).Pairwise fun a b => name a < name b := by
  have hle : (l.mergeSort fun a b => name a ≤ name b).Pairwise
      fun a b => decide (name a ≤ name b) = true :=
    List.pairwise_mergeSort (fun a b c hab hbc => by
      simp only [decide_eq_true_eq] at *
      exact le_trans hab hbc) (fun a b => by
      simpa using le_total (name a) (name b)) l
  have hne : (l.mergeSort fun a b => name a ≤ name b).Pairwise fun a b => name a ≠ name b :=
    List.pairwise_map.mp (((List.mergeSort_perm l _).map name).nodup_iff.mpr hnodup)
  exact (hle.and hne).imp fun h => lt_of_le_of_ne (of_decide_eq_true h.1) h.2

namespace Query

/-! ### Groups of rows with names -/

variable {α : Type} {name : α → String} {row : α → Row}

end Query

/-! ### The table of the amounts -/

namespace ResultTable

/-- The table that lists some rewards, which has no batch if there are none. -/
def listing (rewards : List (String × Float)) : ResultTable :=
  ⟨rewardFields,
    if rewards.isEmpty then []
    else [⟨[rewards.map fun r => .text r.1, rewards.map fun r => .double r.2]⟩]⟩

theorem cellsWithoutNull_map {α : Type} (column : String) {cell : α → Cell}
    (h : ∀ a, cell a ≠ .null) (l : List α) :
    cellsWithoutNull column (l.map cell) = .ok (l.map cell) := by
  refine if_neg ?_
  rw [List.contains_iff_mem, List.mem_map]
  rintro ⟨a, -, ha⟩
  exact h a ha

/-- What is read of a column of a table with one batch is what is read of the batch. -/
theorem column_of_batch {α : Type} {table : ResultTable} {batch : Batch} {name : String}
    {type : ColumnType} {read : ColumnType → List Cell → Outcome (List α)} {items : List α}
    (hbatch : table.batches = [batch]) (htype : table.fields.lookup name = some type)
    (hread : read type (batch.cells (table.columnNames.idxOf name)) = .ok items) :
    table.column name read = .ok items := by
  rw [column, htype, hbatch]
  show ([batch].mapM (fun b => read type (b.cells (table.columnNames.idxOf name))) >>=
    fun batches => pure batches.flatten) = _
  rw [List.mapM_cons, hread]
  exact congrArg Except.ok (List.append_nil items)

/-- Reading a table of texts and doubles gives them back, row by row. -/
theorem rewards_of_batch {table : ResultTable} {rewards : List (String × Float)}
    (hfields : table.fields = rewardFields)
    (hbatch : table.batches =
      [⟨[rewards.map fun r => .text r.1, rewards.map fun r => .double r.2]⟩]) :
    table.rewards = .ok rewards := by
  have hpayee : table.fields.lookup payeeColumn = some .utf8 := by rw [hfields]; rfl
  have hamount : table.fields.lookup amountColumn = some .float64 := by rw [hfields]; rfl
  have hindex : ∀ name, table.columnNames.idxOf name = (rewardFields.map (·.1)).idxOf name :=
    fun name => by rw [columnNames, hfields]
  have hpayees : table.texts payeeColumn = .ok (rewards.map (·.1)) := by
    refine column_of_batch hbatch hpayee ?_
    rw [hindex]
    show (cellsWithoutNull payeeColumn (rewards.map fun r => .text r.1) >>= _) = _
    rw [cellsWithoutNull_map payeeColumn (fun _ => by simp), Outcome.ok_bind, List.map_map]
    rfl
  have hamounts : table.reals amountColumn = .ok (rewards.map (·.2)) := by
    refine column_of_batch hbatch hamount ?_
    rw [hindex]
    show (cellsWithoutNull amountColumn (rewards.map fun r => .double r.2) >>= _) = _
    rw [cellsWithoutNull_map amountColumn (fun _ => by simp), Outcome.ok_bind, List.map_map]
    rfl
  rw [ResultTable.rewards, hpayees, hamounts]
  show Except.ok ((rewards.map (·.1)).zip (rewards.map (·.2))) = _
  rw [List.zip_map']
  exact congrArg Except.ok (List.map_id rewards)

end ResultTable

end Rewards
