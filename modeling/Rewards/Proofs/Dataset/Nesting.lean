/-
Which sizes nest.

A table is accepted if of every two of its sizes that are not zero one divides the other.
The check sorts the sizes and looks at neighbours, so it cannot tell in which order they
were listed, how often, and with how many zeros between them: lists with the same sizes have
the same usable sizes (`Partition.usableSizes_congr`), and the answer depends on nothing else.
-/
import Rewards.Proofs.Dataset

namespace Rewards

open Rewards.Partition

/-! ### Sizes of which one divides the other -/

/-- Of every two sizes that are not zero, one divides the other. -/
def IsNesting (sizes : List UInt64) : Prop :=
  ∀ a ∈ sizes, ∀ b ∈ sizes, a ≠ 0 → b ≠ 0 → a.toNat ∣ b.toNat ∨ b.toNat ∣ a.toNat

/-- Where one of two sizes divides the other, it is the lesser that divides the greater. -/
theorem isAccepted_iff_isNesting {sizes : List UInt64} :
    IsAccepted sizes ↔ (∃ size ∈ sizes, size ≠ 0) ∧ IsNesting sizes := by
  constructor
  · intro h
    refine ⟨h.usable, fun a ha b hb hane hbne => ?_⟩
    rcases UInt64.le_total a b with hle | hle
    · exact Or.inl (h.divides a ha b hb hane hle)
    · exact Or.inr (h.divides b hb a ha hbne hle)
  · rintro ⟨husable, hnesting⟩
    refine ⟨husable, fun a ha b hb hane hle => ?_⟩
    have hpos : 0 < a.toNat := Nat.pos_of_ne_zero fun hzero => hane (UInt64.toNat_inj.mp hzero)
    have hle : a.toNat ≤ b.toNat := hle
    have hbne : b ≠ 0 := by
      rintro rfl
      exact Nat.not_lt.mpr hle hpos
    rcases hnesting a ha b hb hane hbne with hdvd | hdvd
    · exact hdvd
    · have heq : a.toNat = b.toNat := Nat.le_antisymm hle (Nat.le_of_dvd hpos hdvd)
      exact heq ▸ Nat.dvd_refl a.toNat

/-! ### Lists with the same sizes -/

/-- Two lists have the same sizes, zeros aside. -/
def SameSizes (sizes others : List UInt64) : Prop :=
  ∀ size, size ≠ 0 → (size ∈ sizes ↔ size ∈ others)

namespace DatasetConfig

variable {dataset other : DatasetConfig} {name : String} {config otherConfig : TableConfig}

/-- **A table is accepted exactly if it is exported at sizes that nest**, and as it is described. -/
theorem table_eq_ok_iff_isNesting :
    dataset.table name = .ok config ↔
      dataset.tables.get? name = some config ∧
        (∃ size ∈ config.partitionSizes, size ≠ 0) ∧ IsNesting config.partitionSizes := by
  rw [table_eq_ok_iff, ← isAccepted_iff_isNesting]
  exact ⟨fun h => ⟨h.exported, h.accepted⟩, fun h => ⟨h.1, h.2⟩⟩

/-- Whatever is wrong with a table is wrong with the description. -/
theorem category_of_table {problem : Problem} (h : dataset.table name = .error problem) :
    problem.category = .configuration := by
  rcases dataset.exports_cases name with ⟨found, hfound⟩ | hnone |
    ⟨found, hget, hzero | ⟨greater, lesser, hgap⟩⟩
  · rw [table_of_exports hfound] at h
    cases h
  · rw [table_of_not_exported hnone] at h
    cases h
    rfl
  · rw [table_of_all_zero hget hzero] at h
    cases h
    rfl
  · rw [table_of_gap hget hgap] at h
    cases h
    rfl

/-- Tables with the same sizes are both accepted, or refused for the same reason. -/
theorem table_congr (hget : dataset.tables.get? name = some config)
    (hother : other.tables.get? name = some otherConfig)
    (hsame : SameSizes config.partitionSizes otherConfig.partitionSizes) :
    (dataset.table name = .ok config ∧ other.table name = .ok otherConfig) ∨
      ∃ problem, dataset.table name = .error problem ∧ other.table name = .error problem := by
  have husable := usableSizes_congr hsame
  rcases dataset.exports_cases name with ⟨found, hfound⟩ | hnone |
    ⟨found, hfound, hzero | ⟨greater, lesser, hgap⟩⟩
  · obtain rfl : found = config := Option.some.inj (hfound.exported.symm.trans hget)
    have haccepted := isAccepted_iff.mp hfound.accepted
    rw [husable] at haccepted
    exact Or.inl ⟨table_of_exports hfound,
      table_of_exports ⟨hother, isAccepted_iff.mpr haccepted⟩⟩
  · rw [hget] at hnone
    cases hnone
  · obtain rfl : found = config := Option.some.inj (hfound.symm.trans hget)
    have hnil := usableSizes_eq_nil_iff.mpr hzero
    rw [husable] at hnil
    exact Or.inr ⟨_, table_of_all_zero hget hzero,
      table_of_all_zero hother (usableSizes_eq_nil_iff.mp hnil)⟩
  · obtain rfl : found = config := Option.some.inj (hfound.symm.trans hget)
    exact Or.inr ⟨_, table_of_gap hget hgap, table_of_gap hother (husable ▸ hgap)⟩

/--
**A table is accepted exactly if one of its sizes is not zero and of every two that are not,
one divides the other.**  It is then handed out as it is described, and whatever else is a
problem with the configuration.  The answer is the same for every description of the table
with the same sizes, in whatever order and number, and with or without zeros.
-/
theorem accepts_exactly_nesting_sizes (dataset : DatasetConfig) (name : String) :
    (∀ config, dataset.table name = .ok config ↔
      dataset.tables.get? name = some config ∧
        (∃ size ∈ config.partitionSizes, size ≠ 0) ∧ IsNesting config.partitionSizes) ∧
    (∀ problem, dataset.table name = .error problem → problem.category = .configuration) ∧
    (∀ config, dataset.tables.get? name = some config →
      ∀ (other : DatasetConfig) (otherConfig : TableConfig),
        other.tables.get? name = some otherConfig →
        SameSizes config.partitionSizes otherConfig.partitionSizes →
          (dataset.table name = .ok config ∧ other.table name = .ok otherConfig) ∨
            ∃ problem, dataset.table name = .error problem ∧ other.table name = .error problem) :=
  ⟨fun _ => table_eq_ok_iff_isNesting, fun _ => category_of_table,
    fun _ hget _ _ hother hsame => table_congr hget hother hsame⟩

/-- Sizes with a zero and a repetition that nest, and sizes of which two neighbours do not. -/
theorem accepts_exactly_nesting_sizes_unsorted :
    let listed : Dictionary TableConfig := Dictionary.ofList
      [("nesting", ⟨[0, 4, 16, 4, 8]⟩), ("apart", ⟨[30, 0, 100, 10]⟩)]
    let sorted : Dictionary TableConfig := Dictionary.ofList
      [("nesting", ⟨[16, 8, 4]⟩), ("apart", ⟨[100, 30, 10]⟩)]
    DatasetConfig.table ⟨"QmS", listed⟩ "nesting" = .ok ⟨[0, 4, 16, 4, 8]⟩ ∧
      ((DatasetConfig.table ⟨"QmS", listed⟩ "nesting" = .ok ⟨[0, 4, 16, 4, 8]⟩ ∧
          DatasetConfig.table ⟨"QmT", sorted⟩ "nesting" = .ok ⟨[16, 8, 4]⟩) ∨
        ∃ problem, DatasetConfig.table ⟨"QmS", listed⟩ "nesting" = .error problem ∧
          DatasetConfig.table ⟨"QmT", sorted⟩ "nesting" = .error problem) ∧
      ∃ problem, DatasetConfig.table ⟨"QmS", listed⟩ "apart" = .error problem ∧
        problem.category = .configuration := by
  intro listed sorted
  obtain ⟨haccepts, -, hcongr⟩ := accepts_exactly_nesting_sizes ⟨"QmS", listed⟩ "nesting"
  obtain ⟨-, hcategory, -⟩ := accepts_exactly_nesting_sizes ⟨"QmS", listed⟩ "apart"
  have hsame : SameSizes [0, 4, 16, 4, 8] [16, 8, 4] := by
    intro size hsize
    simp only [List.mem_cons, List.not_mem_nil, or_false]
    tauto
  refine ⟨(haccepts _).mpr ⟨by decide +kernel, by decide, by simp [IsNesting]⟩,
    hcongr ⟨[0, 4, 16, 4, 8]⟩ (by decide +kernel) ⟨"QmT", sorted⟩ ⟨[16, 8, 4]⟩
      (by decide +kernel) hsame, ?_⟩
  cases hapart : DatasetConfig.table ⟨"QmS", listed⟩ "apart" with
  | ok config =>
      have hnone : (DatasetConfig.table ⟨"QmS", listed⟩ "apart").toOption = none := by
        decide +kernel
      rw [hapart] at hnone
      cases hnone
  | error problem => exact ⟨problem, rfl, hcategory problem hapart⟩

end DatasetConfig

end Rewards
