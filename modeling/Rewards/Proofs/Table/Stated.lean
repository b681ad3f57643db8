/-
What amounts are read from.

A cell states a number if it is one or if it is a text that denotes one.  Reading a column of
numbers refuses nulls and lists but nothing else: a truth value counts as one or zero, and a
text that denotes no number counts as zero.  So an amount that is summed or paid is either
stated by a cell in the row of its payee, or filled in for a cell there that states none.
-/
import Mathlib
import Rewards.Proofs.Payment.Records
import Rewards.Proofs.Table.Totals

namespace Rewards

/-! ### What a cell states -/

namespace Cell

/-- A cell states a number: it is one, or it is a text that denotes one. -/
inductive States : Cell → Float → Prop
  | integer (n : Int) : States (.integer n) (.ofInt n)
  | double (x : Float) : States (.double x) x
  | single (x : Float32) : States (.single x) x.toFloat
  | text {s : String} {x : Float} (h : denotedDouble? s = some x) : States (.text s) x

/-- A number stands in for a cell that states none. -/
inductive FilledIn : Cell → Float → Prop
  | flag (b : Bool) : FilledIn (.flag b) (if b then 1.0 else 0.0)
  | text {s : String} (h : denotedDouble? s = none) : FilledIn (.text s) 0.0

/-- A cell is read as a number that it states or that is filled in for it. -/
def ReadsAs (cell : Cell) (x : Float) : Prop :=
  cell.States x ∨ cell.FilledIn x

variable {cell : Cell} {x : Float}

theorem States.eq (h : cell.States x) : x = cell.asReal := by
  cases h with
  | integer n => rfl
  | double x => rfl
  | single x => rfl
  | text h => rw [asReal, real?, h, Option.getD_some]

theorem FilledIn.eq (h : cell.FilledIn x) : x = cell.asReal := by
  cases h with
  | flag b => rfl
  | text h => rw [asReal, real?, h, Option.getD_none]

theorem ReadsAs.eq (h : cell.ReadsAs x) : x = cell.asReal :=
  h.elim States.eq FilledIn.eq

/-- Every cell but a null and a list is read as a number. -/
theorem readsAs_asReal (hnull : cell ≠ .null) (hlist : ∀ items, cell ≠ .texts items) :
    cell.ReadsAs cell.asReal := by
  cases cell with
  | null => exact absurd rfl hnull
  | texts items => exact absurd rfl (hlist items)
  | integer n => exact .inl (.integer n)
  | double x => exact .inl (.double x)
  | single x => exact .inl (.single x)
  | flag b => exact .inr (.flag b)
  | text s =>
      rw [asReal, real?]
      cases h : denotedDouble? s with
      | some x => exact .inl (.text h)
      | none => exact .inr (.text h)

theorem text?_eq_asText (hnull : cell ≠ .null) : cell.text? = some cell.asText := by
  cases cell with
  | null => exact absurd rfl hnull
  | _ => rfl

end Cell

/-! ### What a table states -/

namespace ResultTable

variable {table : ResultTable} {name : String}

/-- A row is read as a reward: one cell is the payee, and the other is read as the amount. -/
def RowReads (row : Cell × Cell) (reward : String × Float) : Prop :=
  row.1.text? = some reward.1 ∧ row.2.ReadsAs reward.2

theorem readsAs_of_isNumeric (h : table.IsWellFormed) (hnumeric : table.IsNumeric name)
    {cell : Cell} (hcell : cell ∈ table.cells name) : cell.ReadsAs cell.asReal := by
  refine Cell.readsAs_asReal (fun hnull => hnumeric.noNull (hnull ▸ hcell)) ?_
  rintro items rfl
  obtain ⟨type, htype⟩ := mem_map_fst_iff_lookup.mp hnumeric.present
  have hholds := h.holds htype hcell
  -- only a column of lists has lists, and then there is no batch that the cell could be in
  cases type with
  | textList =>
      rw [cells, hnumeric.noLists htype] at hcell
      cases hcell
  | _ => cases hholds

theorem rowReads_rewardOf (h : table.IsWellFormed) (hlists : table.ListsRewards)
    {row : Cell × Cell} (hrow : row ∈ table.rows) : RowReads row (rewardOf row) := by
  rw [← zip_cells h hlists.payees.present hlists.amounts.present] at hrow
  obtain ⟨hpayee, hamount⟩ := List.of_mem_zip hrow
  exact ⟨Cell.text?_eq_asText fun hnull => hlists.payees.noNull (hnull ▸ hpayee),
    readsAs_of_isNumeric h hlists.amounts hamount⟩

/-- **A column has numbers exactly if it has no nulls and no lists**, each read from its cell. -/
theorem reals_eq_ok_iff_readsAs (h : table.IsWellFormed) {reals : List Float} :
    table.reals name = .ok reals ↔
      table.IsNumeric name ∧ List.Forall₂ Cell.ReadsAs (table.cells name) reals := by
  rw [reals_eq_ok_iff]
  refine and_congr_right fun hnumeric => ⟨?_, fun hreads => ?_⟩
  · rintro rfl
    exact List.forall₂_map_right_iff.mpr
      (List.forall₂_same.mpr fun cell hcell => readsAs_of_isNumeric h hnumeric hcell)
  · have heq : List.Forall₂ Eq ((table.cells name).map Cell.asReal) reals :=
      List.forall₂_map_left_iff.mpr (hreads.imp fun _ _ hcell => hcell.eq.symm)
    exact (List.forall₂_eq_eq_eq ▸ heq : _ = _).symm

/-- Where every cell states a number, these are the numbers of the column. -/
theorem forall₂_states {reals : List Float} (hreals : table.reals name = .ok reals)
    (hstates : ∀ cell ∈ table.cells name, ∃ x, cell.States x) :
    List.Forall₂ Cell.States (table.cells name) reals := by
  obtain ⟨-, rfl⟩ := reals_eq_ok_iff.mp hreals
  refine List.forall₂_map_right_iff.mpr (List.forall₂_same.mpr fun cell hcell => ?_)
  obtain ⟨x, hx⟩ := hstates cell hcell
  exact hx.eq ▸ hx

theorem forall₂_rowReads (h : table.IsWellFormed) {rewards : List (String × Float)}
    (hrewards : table.rewards = .ok rewards) : List.Forall₂ RowReads table.rows rewards := by
  obtain ⟨hlists, rfl⟩ := (rewards_eq_ok_iff h).mp hrewards
  exact List.forall₂_map_right_iff.mpr
    (List.forall₂_same.mpr fun row hrow => rowReads_rewardOf h hlists hrow)

end ResultTable

/-- A payment is a row of the table with a stamp. -/
theorem exists_rowReads_of_paymentsOf {table : ResultTable} {core : CoreParameters}
    {program : String} {cycle : Block} {duration : UInt64} {payments : List PaymentRecord}
    (h : table.IsWellFormed) (hpayments : paymentsOf table core program cycle duration = .ok payments)
    {payment : PaymentRecord} (hmem : payment ∈ payments) :
    ∃ row ∈ table.rows, ResultTable.RowReads row (payment.payee, payment.amount) := by
  obtain ⟨rewards, hrewards, hperm⟩ := perm_of_paymentsOf hpayments
  obtain ⟨hlists, rfl⟩ := (ResultTable.rewards_eq_ok_iff h).mp hrewards
  obtain ⟨_, hreward, rfl⟩ := List.mem_map.mp (hperm.mem_iff.mp hmem)
  obtain ⟨row, hrow, rfl⟩ := List.mem_map.mp hreward
  exact ⟨row, hrow, ResultTable.rowReads_rewardOf h hlists hrow⟩

/-- A total is made of amounts of rows. -/
theorem exists_rowReads_of_sumByPayee {tables : List ResultTable} {totals : Dictionary Float}
    (hshape : ∀ t ∈ tables, t.IsWellFormed) (hsum : sumByPayee tables = .ok totals)
    {payee : String} {total : Float} (htotal : totals.get? payee = some total) :
    ∃ amounts : List Float, amounts ≠ [] ∧ total = amounts.foldl (· + ·) 0.0 ∧
      ∀ x ∈ amounts, ∃ table ∈ tables, ∃ row ∈ table.rows,
        ResultTable.RowReads row (payee, x) := by
  obtain ⟨hlists, rfl⟩ := (sumByPayee_eq_ok_iff hshape).mp hsum
  rw [get?_foldl_addReward_empty] at htotal
  split_ifs at htotal with hmem
  refine ⟨_, amountsOf_ne_nil_iff.mpr hmem, (Option.some.inj htotal).symm, fun x hx => ?_⟩
  obtain ⟨reward, hreward, rfl⟩ := List.mem_map.mp hx
  obtain ⟨hreward, hpayee⟩ := List.mem_filter.mp hreward
  obtain ⟨table, htable, hreward⟩ := List.mem_flatMap.mp hreward
  obtain ⟨row, hrow, rfl⟩ := List.mem_map.mp hreward
  obtain rfl := of_decide_eq_true hpayee
  exact ⟨table, htable, row, hrow,
    ResultTable.rowReads_rewardOf (hshape table htable) (hlists table htable) hrow⟩

/-- **Every amount is stated by a cell or filled in for one.**

Of a well-formed table, the numbers of a column can be read exactly if the column is there and
has no null and no list; anything else is a problem of execution.  They are then read cell by
cell, and where every cell states a number they are the ones stated.  But a truth value and a
text that denotes no number are no problem: one or zero is filled in for them.  So every reward,
every payment and every part of a total comes from a row that names its payee and whose other
cell states the amount or has it filled in. -/
theorem amounts_are_stated_or_filled_in {tables : List ResultTable}
    (hshape : ∀ t ∈ tables, t.IsWellFormed) :
    (∀ table ∈ tables, ∀ name,
      (∀ reals, table.reals name = .ok reals ↔
        table.IsNumeric name ∧ List.Forall₂ Cell.ReadsAs (table.cells name) reals) ∧
      (∀ reals, table.reals name = .ok reals →
        (∀ cell ∈ table.cells name, ∃ x, cell.States x) →
          List.Forall₂ Cell.States (table.cells name) reals) ∧
      (∀ problem, table.reals name = .error problem → problem.category = .execution)) ∧
    (∀ table ∈ tables, ∀ rewards, table.rewards = .ok rewards →
      List.Forall₂ ResultTable.RowReads table.rows rewards) ∧
    (∀ table ∈ tables, ∀ core program cycle duration payments,
      paymentsOf table core program cycle duration = .ok payments →
        ∀ payment ∈ payments, ∃ row ∈ table.rows,
          ResultTable.RowReads row (payment.payee, payment.amount)) ∧
    (∀ totals, sumByPayee tables = .ok totals →
      ∀ payee total, totals.get? payee = some total →
        ∃ amounts : List Float, amounts ≠ [] ∧ total = amounts.foldl (· + ·) 0.0 ∧
          ∀ x ∈ amounts, ∃ table ∈ tables, ∃ row ∈ table.rows,
            ResultTable.RowReads row (payee, x)) := by
  refine ⟨fun table ht name => ⟨fun reals => ?_, fun reals => ?_, fun problem => ?_⟩,
    fun table ht rewards => ?_, fun table ht core program cycle duration payments => ?_,
    fun totals hsum payee total => ?_⟩
  · exact ResultTable.reals_eq_ok_iff_readsAs (hshape table ht)
  · exact ResultTable.forall₂_states
  · exact ResultTable.category_of_reals
  · exact ResultTable.forall₂_rowReads (hshape table ht)
  · exact fun hpayments _ => exists_rowReads_of_paymentsOf (hshape table ht) hpayments
  · exact exists_rowReads_of_sumByPayee hshape hsum

/-- A column of words for amounts, and a column of numbers beside it. -/
theorem amounts_are_stated_or_filled_in_mixed :
    let table : ResultTable :=
      ⟨[("payee", .utf8), ("amount", .utf8), ("share", .int64)],
        [⟨[[.text "0xa"], [.text "1.5"], [.integer 2]]⟩,
         ⟨[[.text "0xb"], [.text "1,5"], [.integer 3]]⟩]⟩
    List.Forall₂ Cell.States [.integer 2, .integer 3] [2.0, 3.0] ∧
      List.Forall₂ ResultTable.RowReads
        [(.text "0xa", .text "1.5"), (.text "0xb", .text "1,5")] [("0xa", 1.5), ("0xb", 0.0)] ∧
      ∃ amounts : List Float, 0.0 = amounts.foldl (· + ·) 0.0 ∧
        ∀ x ∈ amounts, ∃ t ∈ [table], ∃ row ∈ t.rows, ResultTable.RowReads row ("0xb", x) := by
  intro table
  obtain ⟨hcolumns, hrows, -, hsums⟩ :=
    amounts_are_stated_or_filled_in (show ∀ t ∈ [table], t.IsWellFormed by decide +kernel)
  obtain ⟨-, hstates, -⟩ := hcolumns table (by simp) "share"
  refine ⟨hstates _ rfl ?_, hrows table (by simp) _ rfl, ?_⟩
  · intro cell hcell
    have hcells : table.cells "share" = [.integer 2, .integer 3] := by decide +kernel
    rw [hcells, List.mem_pair] at hcell
    rcases hcell with rfl | rfl
    · exact ⟨_, .integer 2⟩
    · exact ⟨_, .integer 3⟩
  · obtain ⟨amounts, -, htotal, hamounts⟩ := hsums _ rfl "0xb" 0.0 rfl
    exact ⟨amounts, htotal, hamounts⟩

/-- **A text that denotes no number is paid as zero**, where a problem of execution is due. -/
theorem word_is_paid_as_zero :
    let table : ResultTable :=
      ⟨[("payee", .utf8), ("amount", .utf8)], [⟨[[.text "0xa"], [.text "ten"]]⟩]⟩
    let core : CoreParameters :=
      ⟨Dictionary.empty.insert "safe_owner" "/data/safes", 100, 0, 200,
        "0x0000000000000000000000000000000000000001"⟩
    table.IsWellFormed ∧ (∀ x, ¬ (Cell.text "ten").States x) ∧
      table.reals "amount" = .ok [0.0] ∧ table.rewards = .ok [("0xa", 0.0)] ∧
      sumByPayee [table] = .ok (Dictionary.empty.insert "0xa" 0.0) ∧
      paymentsOf table core "0xprogram" 200 50 =
        .ok [⟨"0xa", 0.0, "0x0000000000000000000000000000000000000001", "0xprogram", 200, 200,
          250⟩] := by
  intro table core
  refine ⟨by decide +kernel, ?_, rfl, rfl, rfl, ?_⟩
  · intro x hstates
    cases hstates with
    | text h =>
        have hnone : denotedDouble? "ten" = none := by decide +kernel
        rw [hnone] at h
        cases h
  · have hpayable : ∀ r ∈ [("0xa", (0.0 : Float))], IsPayable r.2 := by
      simp only [List.mem_singleton, forall_eq]
      exact ⟨by decide +kernel, by decide +kernel⟩
    exact (paymentsOf_eq_ok_iff rfl (List.pairwise_singleton _ _)).mpr ⟨hpayable, rfl⟩

end Rewards
