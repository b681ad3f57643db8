/-
The sizes that a table is exported at.

The sizes that count are those that are not zero, each once and the greatest first.
An accepted table has at least one, and its sizes nest: each divides every greater one.
That is what lets a partition of a smaller size start exactly where one of a greater
size ends, so everything that is proved of accepted tables starts from here.
-/
import Mathlib
import Rewards.Dataset

namespace Rewards

namespace Partition

/-! ### The list of sizes -/

theorem mem_insertSize {size n : Nat} {sizes : List Nat} :
    n ∈ insertSize size sizes ↔ n = size ∨ n ∈ sizes := by
  induction sizes with
  | nil => simp [insertSize]
  | cons s rest ih =>
      rw [insertSize]
      by_cases hlt : s < size
      · rw [if_pos hlt, List.mem_cons]
      · rw [if_neg hlt]
        by_cases heq : s = size
        · rw [if_pos heq, List.mem_cons, heq]
          tauto
        · rw [if_neg heq, List.mem_cons, ih, List.mem_cons]
          tauto

theorem pairwise_insertSize (size : Nat) {sizes : List Nat} (h : sizes.Pairwise (· > ·)) :
    (insertSize size sizes).Pairwise (· > ·) := by
  induction sizes with
  | nil => simp [insertSize]
  | cons s rest ih =>
      obtain ⟨hhead, hrest⟩ := List.pairwise_cons.mp h
      rw [insertSize]
      by_cases hlt : s < size
      · rw [if_pos hlt]
        refine List.pairwise_cons.mpr ⟨fun n hn => ?_, h⟩
        rcases List.mem_cons.mp hn with rfl | hn
        · exact hlt
        · exact Nat.lt_trans (hhead n hn) hlt
      · rw [if_neg hlt]
        by_cases heq : s = size
        · rw [if_pos heq]
          exact h
        · rw [if_neg heq]
          refine List.pairwise_cons.mpr ⟨fun n hn => ?_, ih hrest⟩
          rcases mem_insertSize.mp hn with rfl | hn
          · exact Nat.lt_of_le_of_ne (Nat.not_lt.mp hlt) (Ne.symm heq)
          · exact hhead n hn

/-- Collecting sizes keeps a descending list descending and adds them to it. -/
private theorem foldl_insertSize (new : List Nat) : ∀ {sizes : List Nat},
    sizes.Pairwise (· > ·) →
      (new.foldl (fun acc s => insertSize s acc) sizes).Pairwise (· > ·) ∧
        ∀ n, n ∈ new.foldl (fun acc s => insertSize s acc) sizes ↔ n ∈ new ∨ n ∈ sizes := by
  induction new with
  | nil => intro sizes h; exact ⟨h, by simp⟩
  | cons s rest ih =>
      intro sizes h
      obtain ⟨hdesc, hmem⟩ := ih (pairwise_insertSize s h)
      refine ⟨hdesc, fun n => ?_⟩
      rw [List.foldl_cons, hmem, mem_insertSize, List.mem_cons]
      tauto

/-- The usable sizes descend. -/
theorem pairwise_usableSizes (sizes : List UInt64) : (usableSizes sizes).Pairwise (· > ·) :=
  (foldl_insertSize _ List.Pairwise.nil).1

/-- The usable sizes are those that are not zero. -/
theorem mem_usableSizes {sizes : List UInt64} {n : Nat} :
    n ∈ usableSizes sizes ↔ 0 < n ∧ ∃ size ∈ sizes, size.toNat = n := by
  rw [usableSizes, (foldl_insertSize _ List.Pairwise.nil).2]
  simp only [List.mem_filter, List.mem_map, decide_eq_true_eq, List.not_mem_nil, or_false]
  exact and_comm

/--
Lists with the same sizes but zero have the same usable sizes.  These descend, so they are
determined by what they have in them.
-/
theorem usableSizes_congr {sizes sizes' : List UInt64}
    (h : ∀ size, size ≠ 0 → (size ∈ sizes ↔ size ∈ sizes')) :
    usableSizes sizes = usableSizes sizes' := by
  refine (pairwise_usableSizes sizes).eq_of_mem_iff (pairwise_usableSizes sizes') fun n => ?_
  rw [mem_usableSizes, mem_usableSizes]
  refine and_congr_right fun hpos => exists_congr fun size => ?_
  refine and_congr_left fun heq => h size ?_
  rintro rfl
  exact Nat.ne_of_lt hpos heq

/-- The last of the usable sizes is the smallest one. -/
theorem isLeast_of_getLast? {sizes : List UInt64} {s : Nat}
    (h : (usableSizes sizes).getLast? = some s) :
    IsLeast {n : Nat | 0 < n ∧ ∃ size ∈ sizes, size.toNat = n} s := by
  obtain ⟨greater, hsplit⟩ := List.getLast?_eq_some_iff.mp h
  refine ⟨mem_usableSizes.mp (List.mem_of_getLast? h), fun n hn => ?_⟩
  have hmem : n ∈ usableSizes sizes := mem_usableSizes.mpr hn
  rw [hsplit] at hmem
  rcases List.mem_append.mp hmem with hgreater | hlast
  · have hdesc := pairwise_usableSizes sizes
    rw [hsplit] at hdesc
    exact Nat.le_of_lt ((List.pairwise_append.mp hdesc).2.2 n hgreater s (by simp))
  · exact Nat.le_of_eq (List.mem_singleton.mp hlast).symm

/-! ### Sizes that nest -/

/-- Sizes that are not zero and of which each one divides those before it. -/
structure Nested (sizes : List Nat) : Prop where
  positive : ∀ s ∈ sizes, 0 < s
  divides : sizes.Pairwise (fun greater lesser => lesser ∣ greater)

theorem Nested.tail {s : Nat} {sizes : List Nat} (h : Nested (s :: sizes)) : Nested sizes :=
  ⟨fun n hn => h.positive n (List.mem_cons_of_mem _ hn), (List.pairwise_cons.mp h.divides).2⟩

/-- If neighbours divide one another, all sizes do. -/
theorem isChain_dvd_iff_pairwise {sizes : List Nat} :
    sizes.IsChain (fun a b => b ∣ a) ↔ sizes.Pairwise (fun a b => b ∣ a) := by
  have htrans : IsTrans Nat (fun a b => b ∣ a) := ⟨fun _ _ _ hba hcb => Nat.dvd_trans hcb hba⟩
  exact List.isChain_iff_pairwise

/-- Nothing is reported exactly if neighbours divide one another. -/
theorem notNested?_eq_none_iff {sizes : List Nat} :
    notNested? sizes = none ↔ sizes.IsChain (fun a b => b ∣ a) := by
  fun_induction notNested? sizes with
  | case1 a b rest hdvd ih =>
      rw [ih, List.isChain_cons_cons, Nat.dvd_iff_mod_eq_zero]
      exact ⟨fun h => ⟨hdvd, h⟩, fun h => h.2⟩
  | case2 a b rest hdvd =>
      rw [List.isChain_cons_cons, Nat.dvd_iff_mod_eq_zero]
      simp [hdvd]
  | case3 sizes hshort =>
      match sizes, hshort with
      | [], _ => simp
      | [a], _ => simp
      | a :: b :: rest, hshort => exact absurd rfl (hshort a b rest)

end Partition

open Rewards.Partition

/-- **An accepted table has a smallest size, and its sizes nest.** -/
theorem DatasetConfig.nested_of_table {dataset : DatasetConfig} {name : String}
    {config : TableConfig} (h : dataset.table name = .ok config) :
    Nested (usableSizes config.partitionSizes) ∧
      ∃ s, (usableSizes config.partitionSizes).getLast? = some s := by
  unfold DatasetConfig.table at h
  cases hget : dataset.tables.get? name with
  | none => simp [hget] at h
  | some exported =>
      simp only [hget] at h
      cases hsizes : usableSizes exported.partitionSizes with
      | nil => simp [hsizes] at h
      | cons a rest =>
          simp only [hsizes] at h
          cases hnested : notNested? (a :: rest) with
          | some pair => simp [hnested] at h
          | none =>
              simp only [hnested, Except.ok.injEq] at h
              subst h
              rw [hsizes]
              have hdivides := isChain_dvd_iff_pairwise.mp (notNested?_eq_none_iff.mp hnested)
              refine ⟨⟨fun n hn => ?_, hdivides⟩,
                (a :: rest).getLast (by simp), List.getLast?_eq_some_getLast (by simp)⟩
              rw [← hsizes] at hn
              exact (mem_usableSizes.mp hn).1

end Rewards
