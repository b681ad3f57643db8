/-
Result tables read as rewards.

A column can be read if the table has it and none of its cells is null, and as numbers only
if it has no lists; every other table is a problem of execution.  The payees and the
amounts are read apart, each through all batches, and are put side by side afterwards.  In
a batch every column has a cell for each row, so no column runs ahead of another and what
stands side by side has stood in one row.
-/
import Mathlib
import Rewards.Proofs.Outcome
import Rewards.Table.Result

namespace Rewards

/-! ### Tables as queries hand them over -/

/-- Whether a column of a type may have a cell. -/
def ColumnType.holds : ColumnType → Cell → Bool
  | _, .null => true
  | .utf8, .text _ => true
  | .largeUtf8, .text _ => true
  | .utf8View, .text _ => true
  | .int64, .integer _ => true
  | .int32, .integer _ => true
  | .uint64, .integer _ => true
  | .float64, .double _ => true
  | .float32, .single _ => true
  | .bool, .flag _ => true
  | .textList, .texts _ => true
  | _, _ => false

/-- A batch has a column for each field, with a cell for each row and of the type of the field. -/
def Batch.Fits (fields : List (String × ColumnType)) (batch : Batch) : Prop :=
  List.Forall₂ (fun field cells =>
    cells.length = batch.rowCount ∧ ∀ cell ∈ cells, field.2.holds cell = true) fields batch.columns

instance (fields : List (String × ColumnType)) (batch : Batch) : Decidable (batch.Fits fields) :=
  inferInstanceAs (Decidable (List.Forall₂ _ fields batch.columns))

namespace ResultTable

/-- Every batch of a table has the columns of the table. -/
def IsWellFormed (table : ResultTable) : Prop :=
  ∀ batch ∈ table.batches, batch.Fits table.fields

instance (table : ResultTable) : Decidable table.IsWellFormed :=
  inferInstanceAs (Decidable (∀ batch ∈ table.batches, batch.Fits table.fields))

/-- The cells of the first column of a name, through all batches. -/
def cells (table : ResultTable) (name : String) : List Cell :=
  table.batches.flatMap fun batch => batch.cells (table.columnNames.idxOf name)

/-- A column is there, and none of its cells is null. -/
structure IsFull (table : ResultTable) (name : String) : Prop where
  present : name ∈ table.columnNames
  noNull : Cell.null ∉ table.cells name

/-- A column is there without nulls, and it does not have lists. -/
structure IsNumeric (table : ResultTable) (name : String) : Prop extends table.IsFull name where
  noLists : table.fields.lookup name = some .textList → table.batches = []

instance (table : ResultTable) (name : String) : Decidable (table.IsFull name) :=
  decidable_of_iff (name ∈ table.columnNames ∧ Cell.null ∉ table.cells name)
    ⟨fun h => ⟨h.1, h.2⟩, fun h => ⟨h.present, h.noNull⟩⟩

instance (table : ResultTable) (name : String) : Decidable (table.IsNumeric name) :=
  decidable_of_iff
    (table.IsFull name ∧ (table.fields.lookup name = some .textList → table.batches = []))
    ⟨fun h => ⟨h.1, h.2⟩, fun h => ⟨h.toIsFull, h.noLists⟩⟩

/-- Payees are there for all rows, and numbers for their amounts. -/
structure ListsRewards (table : ResultTable) : Prop where
  payees : table.IsFull payeeColumn
  amounts : table.IsNumeric amountColumn

instance (table : ResultTable) : Decidable table.ListsRewards :=
  decidable_of_iff (table.IsFull payeeColumn ∧ table.IsNumeric amountColumn)
    ⟨fun h => ⟨h.1, h.2⟩, fun h => ⟨h.payees, h.amounts⟩⟩

end ResultTable

/-! ### The cells of a column -/

theorem mem_map_fst_iff_lookup {fields : List (String × ColumnType)} {name : String} :
    name ∈ fields.map (·.1) ↔ ∃ type, fields.lookup name = some type := by
  rw [← Option.isSome_iff_exists, List.lookup_isSome_iff, List.mem_map]
  constructor
  · rintro ⟨field, hmem, rfl⟩
    exact ⟨field, hmem, beq_self_eq_true _⟩
  · rintro ⟨field, hmem, h⟩
    exact ⟨field, hmem, (beq_iff_eq.mp h).symm⟩

/-- What holds of each field and its column holds of the first field of a name. -/
theorem forall₂_at_lookup (p : ColumnType → List Cell → Prop) {name : String} {type : ColumnType}
    {fields : List (String × ColumnType)} {columns : List (List Cell)}
    (h : List.Forall₂ (fun field cells => p field.2 cells) fields columns)
    (htype : fields.lookup name = some type) :
    ∃ cells, columns[(fields.map (·.1)).idxOf name]? = some cells ∧ p type cells := by
  induction h with
  | nil => cases htype
  | @cons field cells rest columns hhead _ ih =>
      obtain ⟨other, kind⟩ := field
      by_cases hname : name = other
      · subst hname
        rw [List.lookup_cons_self] at htype
        cases htype
        refine ⟨cells, ?_, hhead⟩
        rw [List.map_cons, List.idxOf_cons_self]
        rfl
      · rw [List.lookup_cons, beq_eq_false_iff_ne.mpr hname] at htype
        obtain ⟨found, hfound, hholds⟩ := ih htype
        refine ⟨found, ?_, hholds⟩
        rw [List.map_cons, List.idxOf_cons_ne _ (Ne.symm hname)]
        exact hfound

/-- In a batch that fits, a column that is there has a cell of its type for each row. -/
theorem Batch.Fits.cells {fields : List (String × ColumnType)} {batch : Batch} {name : String}
    {type : ColumnType} (h : batch.Fits fields) (htype : fields.lookup name = some type) :
    (batch.cells ((fields.map (·.1)).idxOf name)).length = batch.rowCount ∧
      ∀ cell ∈ batch.cells ((fields.map (·.1)).idxOf name), type.holds cell = true := by
  obtain ⟨cells, hcells, hholds⟩ := forall₂_at_lookup (fun type cells =>
    cells.length = batch.rowCount ∧ ∀ cell ∈ cells, type.holds cell = true) h htype
  rw [Batch.cells, hcells]
  exact hholds

namespace ResultTable

variable {table : ResultTable} {name : String}

theorem IsWellFormed.holds {type : ColumnType} (h : table.IsWellFormed)
    (htype : table.fields.lookup name = some type) {cell : Cell} (hcell : cell ∈ table.cells name) :
    type.holds cell = true := by
  obtain ⟨batch, hbatch, hmem⟩ := List.mem_flatMap.mp hcell
  exact ((h batch hbatch).cells htype).2 cell hmem

/-! ### Columns -/

theorem cellsWithoutNull_eq_ok_iff {cells read : List Cell} :
    cellsWithoutNull name cells = .ok read ↔ Cell.null ∉ cells ∧ read = cells := by
  unfold cellsWithoutNull
  split_ifs with h
  · have hnull : Cell.null ∈ cells := by simpa using h
    simp [hnull]
  · have hfree : Cell.null ∉ cells := by simpa using h
    simp [hfree, eq_comm]

theorem category_of_cellsWithoutNull {cells : List Cell} {problem : Problem}
    (h : cellsWithoutNull name cells = .error problem) : problem.category = .execution := by
  unfold cellsWithoutNull at h
  split_ifs at h
  cases h
  rfl

variable {α : Type} {read : ColumnType → List Cell → Outcome (List α)}

theorem column_of_lookup {type : ColumnType} (htype : table.fields.lookup name = some type) :
    table.column name read =
      (do return (← table.batches.mapM fun batch =>
        read type (batch.cells (table.columnNames.idxOf name))).flatten) := by
  rw [column, htype]

theorem column_of_absent (habsent : table.fields.lookup name = none) :
    table.column name read = .error (unreadable ("missing column '" ++ name ++ "' (columns: " ++
      ", ".intercalate table.columnNames ++ ")")) := by
  rw [column, habsent]
  rfl

/-- A column that is there has no null if no batch of it has one. -/
theorem isFull_iff (hpresent : name ∈ table.columnNames) :
    table.IsFull name ↔
      ∀ batch ∈ table.batches, Cell.null ∉ batch.cells (table.columnNames.idxOf name) := by
  constructor
  · intro h batch hbatch hmem
    exact h.noNull (List.mem_flatMap.mpr ⟨batch, hbatch, hmem⟩)
  · intro h
    refine ⟨hpresent, fun hnull => ?_⟩
    obtain ⟨batch, hbatch, hmem⟩ := List.mem_flatMap.mp hnull
    exact h batch hbatch hmem

/-- A column is read as its cells are, if it is there and each batch of it can be read. -/
theorem column_eq_ok_iff {fit : ColumnType → Prop} {f : Cell → α}
    (hread : ∀ type cells items,
      read type cells = .ok items ↔ (Cell.null ∉ cells ∧ fit type) ∧ items = cells.map f)
    {items : List α} :
    table.column name read = .ok items ↔
      table.IsFull name ∧
        (∀ type, table.fields.lookup name = some type → table.batches = [] ∨ fit type) ∧
          items = (table.cells name).map f := by
  cases htype : table.fields.lookup name with
  | none =>
      have habsent : ¬ table.IsFull name := fun hfull => by
        obtain ⟨type, h⟩ := mem_map_fst_iff_lookup.mp hfull.present
        rw [htype] at h
        cases h
      rw [column_of_absent htype]
      simp [habsent]
  | some type =>
      have hpresent : name ∈ table.columnNames := mem_map_fst_iff_lookup.mpr ⟨type, htype⟩
      have hfit : (∀ batch ∈ table.batches, fit type) ↔ table.batches = [] ∨ fit type := by
        cases table.batches with
        | nil => simp
        | cons batch rest => exact ⟨fun h => .inr (h batch List.mem_cons_self), by simp +contextual⟩
      rw [column_of_lookup htype, Outcome.flatten_mapM_eq_ok_iff fun _ _ => hread _ _, forall₂_and,
        ← isFull_iff hpresent, hfit, cells, List.map_flatMap]
      simp [and_assoc]

/-- A column that cannot be read is a problem of execution. -/
theorem category_of_column
    (hread : ∀ {type cells problem},
      read type cells = .error problem → problem.category = .execution)
    {problem : Problem} (h : table.column name read = .error problem) :
    problem.category = .execution := by
  cases htype : table.fields.lookup name with
  | none =>
      rw [column_of_absent htype] at h
      cases h
      rfl
  | some type =>
      rw [column_of_lookup htype] at h
      rcases Outcome.bind_eq_error.mp h with h | ⟨parts, -, h⟩
      · obtain ⟨-, batch, -, -, -, hbatch⟩ := Outcome.mapM_eq_error.mp h
        exact hread hbatch
      · cases h

end ResultTable

/-! ### Texts and numbers -/

/-- The text that a cell is read as. -/
def Cell.asText (cell : Cell) : String :=
  cell.text?.getD ""

/-- The number that a cell is read as. -/
def Cell.asReal (cell : Cell) : Float :=
  cell.real?.getD 0.0

namespace ResultTable

variable {table : ResultTable} {name : String} {problem : Problem}

theorem cellTexts_eq_ok_iff {type : ColumnType} {cells : List Cell} {texts : List String} :
    cellTexts name type cells = .ok texts ↔
      (Cell.null ∉ cells ∧ True) ∧ texts = cells.map Cell.asText := by
  unfold cellTexts
  rw [Outcome.bind_eq_ok, and_true]
  constructor
  · rintro ⟨_, hcells, h⟩
    obtain ⟨hnull, rfl⟩ := cellsWithoutNull_eq_ok_iff.mp hcells
    exact ⟨hnull, (Except.ok.inj h).symm⟩
  · rintro ⟨hnull, rfl⟩
    exact ⟨cells, cellsWithoutNull_eq_ok_iff.mpr ⟨hnull, rfl⟩, rfl⟩

theorem cellReals_eq_ok_iff {type : ColumnType} {cells : List Cell} {reals : List Float} :
    cellReals name type cells = .ok reals ↔
      (Cell.null ∉ cells ∧ type ≠ .textList) ∧ reals = cells.map Cell.asReal := by
  unfold cellReals
  rw [Outcome.bind_eq_ok]
  constructor
  · rintro ⟨_, hcells, h⟩
    obtain ⟨hnull, rfl⟩ := cellsWithoutNull_eq_ok_iff.mp hcells
    split_ifs at h with hlist
    exact ⟨⟨hnull, hlist⟩, (Except.ok.inj h).symm⟩
  · rintro ⟨⟨hnull, hlist⟩, rfl⟩
    exact ⟨cells, cellsWithoutNull_eq_ok_iff.mpr ⟨hnull, rfl⟩, if_neg hlist⟩

/-- **The texts of a column are those of its cells.** -/
theorem texts_eq_ok_iff {texts : List String} :
    table.texts name = .ok texts ↔
      table.IsFull name ∧ texts = (table.cells name).map Cell.asText :=
  (column_eq_ok_iff (@cellTexts_eq_ok_iff name)).trans (by simp)

/-- **The numbers of a column are those of its cells**, and lists have none. -/
theorem reals_eq_ok_iff {reals : List Float} :
    table.reals name = .ok reals ↔
      table.IsNumeric name ∧ reals = (table.cells name).map Cell.asReal := by
  have hlists : (∀ type, table.fields.lookup name = some type →
      table.batches = [] ∨ type ≠ .textList) ↔
        (table.fields.lookup name = some .textList → table.batches = []) := by
    constructor
    · intro h hlist
      exact (h _ hlist).resolve_right fun hne => hne rfl
    · intro h type htype
      by_cases hlist : type = .textList
      · exact .inl (h (hlist ▸ htype))
      · exact .inr hlist
  refine (column_eq_ok_iff (@cellReals_eq_ok_iff name)).trans ?_
  rw [hlists, ← and_assoc]
  exact and_congr_left fun _ => ⟨fun h => ⟨h.1, h.2⟩, fun h => ⟨h.toIsFull, h.noLists⟩⟩

theorem category_of_texts (h : table.texts name = .error problem) :
    problem.category = .execution := by
  refine category_of_column (fun hread => ?_) h
  rcases Outcome.bind_eq_error.mp hread with hread | ⟨_, -, hread⟩
  · exact category_of_cellsWithoutNull hread
  · cases hread

theorem category_of_reals (h : table.reals name = .error problem) :
    problem.category = .execution := by
  refine category_of_column (fun hread => ?_) h
  rcases Outcome.bind_eq_error.mp hread with hread | ⟨_, -, hread⟩
  · exact category_of_cellsWithoutNull hread
  · split_ifs at hread
    cases hread
    rfl

/-! ### Rewards -/

/-- The cells of payee and amount, row by row. -/
def rows (table : ResultTable) : List (Cell × Cell) :=
  table.batches.flatMap fun batch =>
    (batch.cells (table.columnNames.idxOf payeeColumn)).zip
      (batch.cells (table.columnNames.idxOf amountColumn))

/-- The reward that a row is read as. -/
def rewardOf (row : Cell × Cell) : String × Float :=
  (row.1.asText, row.2.asReal)

/-- Lists that are made in parts are put side by side part by part, if the parts are of a length. -/
theorem zip_flatMap {α β γ : Type} {f : α → List β} {g : α → List γ} :
    ∀ {l : List α}, (∀ a ∈ l, (f a).length = (g a).length) →
      (l.flatMap f).zip (l.flatMap g) = l.flatMap fun a => (f a).zip (g a) := by
  intro l
  induction l with
  | nil => intro _; rfl
  | cons a rest ih =>
      intro h
      obtain ⟨ha, hrest⟩ := List.forall_mem_cons.mp h
      rw [List.flatMap_cons, List.flatMap_cons, List.zip_append ha, ih hrest, List.flatMap_cons]

/-- Columns put side by side are the rows of the batches. -/
theorem zip_cells (h : table.IsWellFormed) (hpayees : payeeColumn ∈ table.columnNames)
    (hamounts : amountColumn ∈ table.columnNames) :
    (table.cells payeeColumn).zip (table.cells amountColumn) = table.rows := by
  obtain ⟨payee, hpayee⟩ := mem_map_fst_iff_lookup.mp hpayees
  obtain ⟨amount, hamount⟩ := mem_map_fst_iff_lookup.mp hamounts
  exact zip_flatMap fun batch hbatch =>
    ((h batch hbatch).cells hpayee).1.trans ((h batch hbatch).cells hamount).1.symm

theorem rewards_eq_zip {rewards : List (String × Float)} :
    table.rewards = .ok rewards ↔ table.ListsRewards ∧
      rewards = ((table.cells payeeColumn).map Cell.asText).zip
        ((table.cells amountColumn).map Cell.asReal) := by
  unfold ResultTable.rewards
  rw [Outcome.bind_eq_ok]
  constructor
  · rintro ⟨payees, hpayees, h⟩
    obtain ⟨amounts, hamounts, h⟩ := Outcome.bind_eq_ok.mp h
    obtain ⟨hfull, rfl⟩ := texts_eq_ok_iff.mp hpayees
    obtain ⟨hnumeric, rfl⟩ := reals_eq_ok_iff.mp hamounts
    exact ⟨⟨hfull, hnumeric⟩, (Except.ok.inj h).symm⟩
  · rintro ⟨hlists, rfl⟩
    refine ⟨_, texts_eq_ok_iff.mpr ⟨hlists.payees, rfl⟩, ?_⟩
    exact Outcome.bind_eq_ok.mpr ⟨_, reals_eq_ok_iff.mpr ⟨hlists.amounts, rfl⟩, rfl⟩

/-- A table has rewards exactly if it lists them. -/
theorem exists_rewards_iff : (∃ rewards, table.rewards = .ok rewards) ↔ table.ListsRewards := by
  constructor
  · rintro ⟨rewards, h⟩
    exact (rewards_eq_zip.mp h).1
  · intro h
    exact ⟨_, rewards_eq_zip.mpr ⟨h, rfl⟩⟩

/-- **The rewards of a table are those of its rows.** -/
theorem rewards_eq_ok_iff (h : table.IsWellFormed) {rewards : List (String × Float)} :
    table.rewards = .ok rewards ↔ table.ListsRewards ∧ rewards = table.rows.map rewardOf := by
  rw [rewards_eq_zip]
  refine and_congr_right fun hlists => ?_
  rw [List.zip_map, zip_cells h hlists.payees.present hlists.amounts.present]
  rfl

/-- A table without rewards to read is a problem of execution. -/
theorem category_of_rewards (h : table.rewards = .error problem) :
    problem.category = .execution := by
  rcases Outcome.bind_eq_error.mp h with h | ⟨_, -, h⟩
  · exact category_of_texts h
  · rcases Outcome.bind_eq_error.mp h with h | ⟨_, -, h⟩
    · exact category_of_reals h
    · cases h

end ResultTable

end Rewards
