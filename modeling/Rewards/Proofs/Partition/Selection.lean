/-
The partitions that are read for a range of blocks.

Of an accepted table, with `s` its smallest size, the blocks below the latest exported
block rounded down to `s` are exported in complete partitions.  If the range starts
below that block, the partitions selected for it tile the range up to there: they follow
one another without a gap, the first one covers the first block, each of them has a
block of the range, and each block of the range that is exported lies in exactly one.
If the range starts there or later, none is selected.
-/
import Rewards.Proofs.Block
import Rewards.Proofs.Partition.Tiling

namespace Rewards

namespace Partition

variable {range : BlockRange} {sizes : List UInt64} {s : Nat}

/-- Nothing is selected for a range, or a run that starts at its first block rounded down. -/
theorem select_eq_nil_or_run (hnested : Nested (usableSizes sizes))
    (hlast : (usableSizes sizes).getLast? = some s) (hordered : range.first ≤ range.last)
    (latest : Block) :
    (select range latest sizes = [] ∧ roundDown latest.toNat s ≤ range.first.toNat) ∨
    (range.first.toNat < roundDown latest.toNat s ∧
      ∃ start stop, Run start stop (select range latest sizes) ∧ start ≤ range.first.toNat ∧
        stop ≤ roundDown latest.toNat s ∧
        (stop = roundDown latest.toNat s ∨ range.last.toNat < stop) ∧
        ∀ p ∈ (select range latest sizes).head?, p.Covers range.first.toNat) := by
  have hreach : reach latest.toNat range.first.toNat (usableSizes sizes) =
      roundDown latest.toNat s := by
    rw [reach, hlast]
    rfl
  have hle : range.first.toNat ≤ range.last.toNat := hordered
  rcases (run_of_fresh latest.toNat_lt range.first.toNat_lt hnested).1 with
    ⟨hnil, hall⟩ | ⟨start, hstart, hlt, hrun, hhead⟩
  · refine Or.inl ⟨?_, hall s (List.mem_of_getLast? hlast)⟩
    rw [select, complete, levels, hnil]
    rfl
  · rw [hreach] at hlt hrun
    obtain ⟨stop, hcut, hstop, hend⟩ := hrun.filter_start (Nat.le_trans hstart hle)
    refine Or.inr ⟨hlt, start, stop, hcut, hstart, hstop, hend, ?_⟩
    -- The first partition starts before the range ends, so cutting off keeps it.
    intro p hp
    refine hhead p ?_
    rw [select, complete, levels] at hp
    cases hps : (levelsFrom latest.toNat range.first.toNat false (usableSizes sizes)).flatMap
        Level.partitions with
    | nil => simp [hps] at hp
    | cons q rest =>
        rw [hps] at hhead hp
        have hq : q.start ≤ range.last.toNat := Nat.le_trans (hhead q rfl).1 hle
        rw [List.filter_cons_of_pos (by simpa using hq)] at hp
        exact hp

/-- Nothing is selected exactly if the range starts where no complete partition is. -/
theorem select_eq_nil_iff (hnested : Nested (usableSizes sizes))
    (hlast : (usableSizes sizes).getLast? = some s) (hordered : range.first ≤ range.last)
    (latest : Block) :
    select range latest sizes = [] ↔ roundDown latest.toNat s ≤ range.first.toNat := by
  rcases select_eq_nil_or_run hnested hlast hordered latest with
    ⟨hnil, hle⟩ | ⟨hlt, start, stop, hrun, hstart, -, hend, -⟩
  · exact ⟨fun _ => hle, fun _ => hnil⟩
  · refine ⟨fun hnil => ?_, fun hle => absurd hlt (Nat.not_lt.mpr hle)⟩
    have hle : range.first.toNat ≤ range.last.toNat := hordered
    have hcovered : range.first.toNat < stop := by omega
    obtain ⟨p, ⟨hp, -⟩, -⟩ := hrun.existsUnique_covers hstart hcovered
    rw [hnil] at hp
    cases hp

/-- What is selected comes one after the other, and none of it is empty. -/
theorem ascending_select (hnested : Nested (usableSizes sizes)) (range : BlockRange)
    (latest : Block) :
    (select range latest sizes).Pairwise (fun p q => p.stop ≤ q.start) ∧
      ∀ p ∈ select range latest sizes, p.start < p.stop := by
  have hcomplete : (complete range.first latest sizes).Pairwise (fun p q => p.stop ≤ q.start) ∧
      ∀ p ∈ complete range.first latest sizes, p.start < p.stop := by
    rcases (run_of_fresh latest.toNat_lt range.first.toNat_lt hnested).1 with
      ⟨hnil, -⟩ | ⟨start, -, -, hrun, -⟩
    · rw [complete, levels, hnil]
      exact ⟨List.Pairwise.nil, by simp⟩
    · exact ⟨hrun.pairwise, fun p hp => (hrun.bounds hp).2.1⟩
  exact ⟨hcomplete.1.filter _, fun p hp => hcomplete.2 p (List.mem_filter.mp hp).1⟩

/-- Partitions that tile a range of blocks as far as it lies below some block. -/
structure Tiles (range : BlockRange) (limit : Nat) (ps : List Partition) : Prop where
  /-- They come one after the other. -/
  ascending : ps.Pairwise (fun p q => p.stop ≤ q.start)
  /-- Each one starts where the one before it ends. -/
  gapFree : ps.IsChain (fun p q => p.stop = q.start)
  /-- None is empty, and none goes beyond the block. -/
  within : ∀ p ∈ ps, p.start < p.stop ∧ p.stop ≤ limit
  /-- The first one covers the first block of the range. -/
  covers_first : ∀ p ∈ ps.head?, p.Covers range.first.toNat
  /-- Each one covers a block of the range. -/
  meets : ∀ p ∈ ps, ∃ b : Block, range.contains b = true ∧ p.Covers b.toNat
  /-- Each block of the range below the block is covered by exactly one. -/
  once : ∀ b : Block, range.contains b = true → b.toNat < limit → ∃! p, p ∈ ps ∧ p.Covers b.toNat

/-- A partition of a run that starts in a range or before covers a block of the range. -/
theorem exists_block_of_bounds {p : Partition} (hordered : range.first ≤ range.last)
    (hstart : p.start ≤ range.last.toNat) (hpos : p.start < p.stop)
    (hstop : range.first.toNat < p.stop) :
    ∃ b : Block, range.contains b = true ∧ p.Covers b.toNat := by
  have hle : range.first.toNat ≤ range.last.toNat := hordered
  have hlt : range.last.toNat < 2 ^ 64 := range.last.toNat_lt
  by_cases hfirst : p.start ≤ range.first.toNat
  · exact ⟨range.first, BlockRange.contains_iff.mpr ⟨Nat.le_refl _, hle⟩, hfirst, hstop⟩
  · have htoNat : (UInt64.ofNat p.start).toNat = p.start :=
      UInt64.toNat_ofNat_of_lt' (by simp only [UInt64.size]; omega)
    refine ⟨UInt64.ofNat p.start, BlockRange.contains_iff.mpr ?_, ?_⟩
    · rw [htoNat]
      omega
    · rw [htoNat]
      exact ⟨Nat.le_refl _, hpos⟩

/-- **The partitions selected for a range tile it.** -/
theorem tiles_select (hnested : Nested (usableSizes sizes))
    (hlast : (usableSizes sizes).getLast? = some s) (hordered : range.first ≤ range.last)
    {latest : Block} (hne : select range latest sizes ≠ []) :
    Tiles range (roundDown latest.toNat s) (select range latest sizes) := by
  rcases select_eq_nil_or_run hnested hlast hordered latest with
    ⟨hnil, -⟩ | ⟨hlt, start, stop, hrun, hstart, hstop, hend, hhead⟩
  · exact absurd hnil hne
  · refine ⟨hrun.pairwise, hrun.isChain, fun p hp => ?_, hhead, fun p hp => ?_, fun b hb hlimit => ?_⟩
    · obtain ⟨-, hpos, hle⟩ := hrun.bounds hp
      exact ⟨hpos, Nat.le_trans hle hstop⟩
    · have hpstart : p.start ≤ range.last.toNat := by
        simpa using (List.mem_filter.mp hp).2
      have hpstop : range.first.toNat < p.stop := by
        -- No partition ends before the first one does.
        cases hps : select range latest sizes with
        | nil => exact absurd hps hne
        | cons q rest =>
            rw [hps] at hp hrun hhead
            have hq : range.first.toNat < q.stop := (hhead q rfl).2
            rcases List.mem_cons.mp hp with rfl | hp'
            · exact hq
            · have hafter := (List.pairwise_cons.mp hrun.pairwise).1 p hp'
              have := (hrun.bounds hp).2.1
              omega
      exact exists_block_of_bounds hordered hpstart (hrun.bounds hp).2.1 hpstop
    · obtain ⟨hfirst, hbl⟩ := BlockRange.contains_iff.mp hb
      exact hrun.existsUnique_covers (by omega) (by omega)

/--
**Selecting partitions tiles the range.**  For every table that a dataset accepts, every
range in order and every latest exported block: what is selected tiles the range up to
that block rounded down to the smallest size, nothing is selected exactly if the range
starts there or later, and every number that is computed on the way is a word.
-/
theorem select_tiles_range {dataset : DatasetConfig} {name : String} {config : TableConfig}
    (haccepted : dataset.table name = .ok config) {range : BlockRange}
    (hordered : range.first ≤ range.last) (latest : Block) :
    ∃ s, IsLeast {n : Nat | 0 < n ∧ ∃ size ∈ config.partitionSizes, size.toNat = n} s ∧
      (select range latest config.partitionSizes = [] ↔
        roundDown latest.toNat s ≤ range.first.toNat) ∧
      (select range latest config.partitionSizes ≠ [] →
        Tiles range (roundDown latest.toNat s) (select range latest config.partitionSizes)) ∧
      ∀ l ∈ levels range.first latest config.partitionSizes, l.FitsWords := by
  obtain ⟨hnested, s, hlast⟩ := DatasetConfig.nested_of_table haccepted
  exact ⟨s, isLeast_of_getLast? hlast, select_eq_nil_iff hnested hlast hordered latest,
    tiles_select hnested hlast hordered,
    (run_of_fresh latest.toNat_lt range.first.toNat_lt hnested).2⟩

/-- A table with its sizes in no order, a zero and a repetition among them. -/
def mixedSizes : TableConfig := ⟨[100, 0, 1000, 100]⟩

/-- A dataset that exports one table. -/
def mixedDataset : DatasetConfig := ⟨"Qm", Dictionary.empty.insert "payments" mixedSizes⟩

/-- Two sizes tile the blocks from 150 to 1150 if 1250 blocks are exported. -/
theorem select_tiles_range_mixed :
    mixedDataset.table "payments" = .ok mixedSizes ∧ (150 : Block) ≤ 1150 ∧
      ∃ s, IsLeast {n : Nat | 0 < n ∧ ∃ size ∈ mixedSizes.partitionSizes, size.toNat = n} s ∧
        (select ⟨150, 1150⟩ 1250 mixedSizes.partitionSizes = [] ↔
          roundDown (1250 : Block).toNat s ≤ (150 : Block).toNat) ∧
        (select ⟨150, 1150⟩ 1250 mixedSizes.partitionSizes ≠ [] →
          Tiles ⟨150, 1150⟩ (roundDown (1250 : Block).toNat s)
            (select ⟨150, 1150⟩ 1250 mixedSizes.partitionSizes)) ∧
        ∀ l ∈ levels 150 1250 mixedSizes.partitionSizes, l.FitsWords := by
  have haccepted : mixedDataset.table "payments" = .ok mixedSizes := by decide +kernel
  have hordered : (⟨150, 1150⟩ : BlockRange).first ≤ (⟨150, 1150⟩ : BlockRange).last := by decide
  exact ⟨haccepted, hordered, select_tiles_range haccepted hordered 1250⟩

end Partition

end Rewards
