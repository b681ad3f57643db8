/-
What a dataset says about itself.

A description is read and then decoded, and each of the two may fail in its own way.  A
table is accepted if it is exported at some size that is not zero and each of its sizes
divides every greater one.  The check looks at neighbours only, which is enough as the
sizes descend.
-/
import Rewards.Dataset
import Rewards.Proofs.Outcome
import Rewards.Proofs.Partition.Sizes

namespace Rewards

/-! ### Descriptions -/

section Description

variable {α : Type} {shape : Yaml.Part → Yaml.Walk α} {tree : FileTree} {path : String} {value : α}

/-- A file can be read and holds a value of a shape. -/
def Describes (tree : FileTree) (path : String) (shape : Yaml.Part → Yaml.Walk α) (value : α) :
    Prop :=
  ∃ text, tree.readText path = .ok text ∧ Yaml.read shape text = .ok value

theorem readDescription_eq_ok_iff :
    readDescription shape tree path = .ok value ↔ Describes tree path shape value := by
  unfold readDescription Describes
  cases htext : tree.readText path with
  | error obstacle => simp
  | ok text =>
      cases hvalue : Yaml.read shape text with
      | error sentence => simp [hvalue]
      | ok found => simp [hvalue]

/-- A file that cannot be read is one problem, and one that holds something else another. -/
theorem readDescription_eq_error_iff {problem : Problem} :
    readDescription shape tree path = .error problem ↔
      (∃ obstacle, tree.readText path = .error obstacle ∧
        problem = .execution ("failed to read " ++ path) (.told obstacle.words)) ∨
      ∃ text sentence, tree.readText path = .ok text ∧ Yaml.read shape text = .error sentence ∧
        problem = .configuration (Yaml.explained ("invalid dataset file " ++ path) sentence) := by
  unfold readDescription
  cases htext : tree.readText path with
  | error obstacle => simp [eq_comm]
  | ok text =>
      cases hvalue : Yaml.read shape text with
      | error sentence => simp [hvalue, eq_comm]
      | ok found => simp [hvalue]

end Description

/-! ### Accepted tables -/

/-- Sizes at which a table can be exported: one is no zero, and each divides every greater one. -/
structure IsAccepted (sizes : List UInt64) : Prop where
  usable : ∃ size ∈ sizes, size ≠ 0
  divides : ∀ a ∈ sizes, ∀ b ∈ sizes, a ≠ 0 → a ≤ b → a.toNat ∣ b.toNat

/-- The first two neighbours of which the lesser does not divide the greater. -/
def IsFirstGap (sizes : List Nat) (greater lesser : Nat) : Prop :=
  ∃ before after, sizes = before ++ greater :: lesser :: after ∧
    (before ++ [greater]).IsChain (fun a b => b ∣ a) ∧ ¬ lesser ∣ greater

/-- Where the first two sizes are no gap, the first gap is that of the others. -/
theorem isFirstGap_cons_iff {a b greater lesser : Nat} {rest : List Nat} (h : b ∣ a) :
    IsFirstGap (a :: b :: rest) greater lesser ↔ IsFirstGap (b :: rest) greater lesser := by
  constructor
  · rintro ⟨before, after, hsizes, hchain, hgap⟩
    cases before with
    | nil =>
        obtain ⟨rfl, htail⟩ := List.cons.inj hsizes
        obtain ⟨rfl, -⟩ := List.cons.inj htail
        exact absurd h hgap
    | cons c before =>
        obtain ⟨rfl, htail⟩ := List.cons.inj hsizes
        exact ⟨before, after, htail, hchain.of_cons, hgap⟩
  · rintro ⟨before, after, hsizes, hchain, hgap⟩
    refine ⟨a :: before, after, by rw [hsizes]; rfl, ?_, hgap⟩
    cases before with
    | nil =>
        obtain ⟨rfl, -⟩ := List.cons.inj hsizes
        exact List.IsChain.cons_cons h hchain
    | cons c before =>
        obtain ⟨rfl, -⟩ := List.cons.inj hsizes
        exact List.IsChain.cons_cons h hchain

/-- **The sizes that are reported are the first neighbours that do not nest.** -/
theorem notNested?_eq_some_iff {sizes : List Nat} {greater lesser : Nat} :
    notNested? sizes = some (greater, lesser) ↔ IsFirstGap sizes greater lesser := by
  fun_induction notNested? sizes with
  | case1 a b rest hdvd ih => rw [ih, isFirstGap_cons_iff (Nat.dvd_of_mod_eq_zero hdvd)]
  | case2 a b rest hdvd =>
      have hgap : ¬ b ∣ a := fun h => hdvd (Nat.mod_eq_zero_of_dvd h)
      constructor
      · intro h
        cases h
        exact ⟨[], rest, rfl, List.isChain_singleton _, hgap⟩
      · rintro ⟨before, after, hsizes, hchain, -⟩
        cases before with
        | nil =>
            obtain ⟨rfl, htail⟩ := List.cons.inj hsizes
            obtain ⟨rfl, -⟩ := List.cons.inj htail
            rfl
        | cons c before =>
            obtain ⟨rfl, htail⟩ := List.cons.inj hsizes
            cases before with
            | nil =>
                obtain ⟨rfl, -⟩ := List.cons.inj htail
                exact absurd (List.isChain_cons_cons.mp hchain).1 hgap
            | cons d before =>
                obtain ⟨rfl, -⟩ := List.cons.inj htail
                exact absurd (List.isChain_cons_cons.mp hchain).1 hgap
  | case3 sizes hshort =>
      constructor
      · intro h
        cases h
      · rintro ⟨before, after, rfl, -⟩
        cases before with
        | nil => exact absurd rfl (hshort greater lesser after)
        | cons c before =>
            cases before with
            | nil => exact absurd rfl (hshort c greater (lesser :: after))
            | cons d before =>
                exact absurd rfl (hshort c d (before ++ greater :: lesser :: after))

open Rewards.Partition

/-- There is a usable size unless all are zero. -/
theorem usableSizes_eq_nil_iff {sizes : List UInt64} :
    usableSizes sizes = [] ↔ ∀ size ∈ sizes, size = 0 := by
  rw [List.eq_nil_iff_forall_not_mem]
  constructor
  · intro h size hsize
    by_contra hne
    have hpos : 0 < size.toNat :=
      Nat.pos_of_ne_zero fun hzero => hne (UInt64.toNat_inj.mp hzero)
    exact h size.toNat (mem_usableSizes.mpr ⟨hpos, size, hsize, rfl⟩)
  · intro h n hn
    obtain ⟨hpos, size, hsize, rfl⟩ := mem_usableSizes.mp hn
    rw [h size hsize] at hpos
    exact Nat.lt_irrefl 0 hpos

/-- Usable sizes of which neighbours divide one another are those at which a table is accepted. -/
theorem isChain_usableSizes_iff {sizes : List UInt64} :
    (usableSizes sizes).IsChain (fun a b => b ∣ a) ↔
      ∀ a ∈ sizes, ∀ b ∈ sizes, a ≠ 0 → a ≤ b → a.toNat ∣ b.toNat := by
  rw [isChain_dvd_iff_pairwise]
  have hdesc := pairwise_usableSizes sizes
  constructor
  · intro hdvd a ha b hb hne hle
    -- Sizes descend, so of two different ones the greater comes first and the lesser divides it.
    have hpair : (usableSizes sizes).Pairwise fun m n => (m ≤ n → m ∣ n) ∧ (n ≤ m → n ∣ m) :=
      (hdesc.and hdvd).imp fun h => ⟨fun hle => absurd h.1 (Nat.not_lt.mpr hle), fun _ => h.2⟩
    have hsymm : Std.Symm fun m n : Nat => (m ≤ n → m ∣ n) ∧ (n ≤ m → n ∣ m) :=
      ⟨fun _ _ h => ⟨h.2, h.1⟩⟩
    have hall := hpair.forall_of_forall fun n _ =>
      ⟨fun _ => Nat.dvd_refl n, fun _ => Nat.dvd_refl n⟩
    have hapos : 0 < a.toNat := Nat.pos_of_ne_zero fun hzero => hne (UInt64.toNat_inj.mp hzero)
    have hbpos : 0 < b.toNat := Nat.lt_of_lt_of_le hapos hle
    have hamem := mem_usableSizes.mpr ⟨hapos, a, ha, rfl⟩
    have hbmem := mem_usableSizes.mpr ⟨hbpos, b, hb, rfl⟩
    exact (hall hamem hbmem).1 hle
  · intro h
    refine hdesc.imp_of_mem fun {m n} hm hn hgt => ?_
    obtain ⟨-, a, ha, rfl⟩ := mem_usableSizes.mp hm
    obtain ⟨hpos, b, hb, rfl⟩ := mem_usableSizes.mp hn
    exact h b hb a ha (fun hzero => Nat.ne_of_gt hpos (congrArg UInt64.toNat hzero))
      (Nat.le_of_lt hgt)

theorem isAccepted_iff {sizes : List UInt64} :
    IsAccepted sizes ↔ usableSizes sizes ≠ [] ∧ notNested? (usableSizes sizes) = none := by
  rw [notNested?_eq_none_iff, isChain_usableSizes_iff, ne_eq, usableSizes_eq_nil_iff, not_forall]
  simp only [exists_prop, not_forall]
  exact ⟨fun h => ⟨h.usable, h.divides⟩, fun h => ⟨h.1, h.2⟩⟩

/-- The table is exported by the dataset, at sizes that are accepted. -/
structure DatasetConfig.Exports (dataset : DatasetConfig) (name : String) (config : TableConfig) :
    Prop where
  exported : dataset.tables.get? name = some config
  accepted : IsAccepted config.partitionSizes

namespace DatasetConfig

variable {dataset : DatasetConfig} {name : String} {config : TableConfig}

theorem table_of_not_exported (h : dataset.tables.get? name = none) :
    dataset.table name = .error (.configuration ("dataset for subgraph '" ++ dataset.subgraph ++
      "' does not export table '" ++ name ++ "'")) := by
  rw [table, h]

theorem table_of_all_zero (hget : dataset.tables.get? name = some config)
    (hzero : ∀ size ∈ config.partitionSizes, size = 0) :
    dataset.table name =
      .error (.configuration ("table '" ++ name ++ "' has no non-zero partition size")) := by
  rw [table, hget]
  simp only [usableSizes_eq_nil_iff.mpr hzero]

theorem table_of_gap (hget : dataset.tables.get? name = some config) {greater lesser : Nat}
    (hgap : IsFirstGap (usableSizes config.partitionSizes) greater lesser) :
    dataset.table name = .error (.configuration ("table '" ++ name ++ "' partition size " ++
      natText greater ++ " is not a multiple of " ++ natText lesser)) := by
  rw [table, hget]
  have hfound := notNested?_eq_some_iff.mpr hgap
  cases hsizes : usableSizes config.partitionSizes with
  | nil => simp [hsizes, notNested?] at hfound
  | cons size sizes =>
      rw [hsizes] at hfound
      simp only [hsizes, hfound]

theorem table_of_exports (h : dataset.Exports name config) : dataset.table name = .ok config := by
  rw [table, h.exported]
  obtain ⟨hne, hnested⟩ := isAccepted_iff.mp h.accepted
  cases hsizes : usableSizes config.partitionSizes with
  | nil => exact absurd hsizes hne
  | cons size sizes =>
      rw [hsizes] at hnested
      simp only [hsizes, hnested]

/-- A table is exported at sizes that nest, or not at all, or at no usable size, or with a gap. -/
theorem exports_cases (dataset : DatasetConfig) (name : String) :
    (∃ config, dataset.Exports name config) ∨ dataset.tables.get? name = none ∨
    ∃ config, dataset.tables.get? name = some config ∧
      ((∀ size ∈ config.partitionSizes, size = 0) ∨
        ∃ greater lesser, IsFirstGap (usableSizes config.partitionSizes) greater lesser) := by
  cases hget : dataset.tables.get? name with
  | none => exact Or.inr (Or.inl rfl)
  | some config =>
      by_cases hzero : ∀ size ∈ config.partitionSizes, size = 0
      · exact Or.inr (Or.inr ⟨config, rfl, Or.inl hzero⟩)
      · cases hnested : notNested? (usableSizes config.partitionSizes) with
        | some gap =>
            exact Or.inr (Or.inr ⟨config, rfl, Or.inr
              ⟨gap.1, gap.2, notNested?_eq_some_iff.mp hnested⟩⟩)
        | none =>
            exact Or.inl ⟨config, hget, isAccepted_iff.mpr
              ⟨fun hnil => hzero (usableSizes_eq_nil_iff.mp hnil), hnested⟩⟩

/-- **A table is accepted exactly if it is exported at sizes that nest.** -/
theorem table_eq_ok_iff : dataset.table name = .ok config ↔ dataset.Exports name config := by
  refine ⟨fun h => ?_, table_of_exports⟩
  rcases dataset.exports_cases name with ⟨found, hfound⟩ | hnone |
    ⟨found, hget, hzero | ⟨greater, lesser, hgap⟩⟩
  · rw [table_of_exports hfound] at h
    exact Except.ok.inj h ▸ hfound
  · rw [table_of_not_exported hnone] at h
    cases h
  · rw [table_of_all_zero hget hzero] at h
    cases h
  · rw [table_of_gap hget hgap] at h
    cases h

end DatasetConfig

end Rewards
