/-
Payment cycles cut the validity window into ranges, one after the other.

A cycle covers the blocks before its end, as many as a cycle is long, but none from
before the window.  The selected cycles end one length apart, so each starts where the
one before it ends and no block is left out or covered twice; the first one may be cut
off at the start of the window, and cycles that end after the window cover nothing.  So
together they cover the blocks from where the first one starts, or the window if that
is later, up to the end of the last cycle of the window.

All bounds are exact.  How many steps back there are is found by a division; stepping
back with checked words, as long as neither the product nor the difference leaves the
range of a word, finds the same cycles (`paymentCycles_eq_checked`).
-/
import Mathlib
import Rewards.Cycle
import Rewards.Proofs.Block

namespace Rewards

/-! ### Checked arithmetic -/

namespace Word

/-- The product of two words, if it is a word. -/
def checkedMul? (a b : UInt64) : Option UInt64 :=
  if a.toNat * b.toNat < count 64 then some (a * b) else none

/-- The difference of two words, if it is not below zero. -/
def checkedSub? (a b : UInt64) : Option UInt64 :=
  if b ≤ a then some (a - b) else none

theorem toNat_ofNat_sub (a : UInt64) (n : Nat) : (UInt64.ofNat (a.toNat - n)).toNat = a.toNat - n :=
  UInt64.toNat_ofNat_of_lt' (Nat.lt_of_le_of_lt (Nat.sub_le _ _) a.toNat_lt)

end Word

/-! ### The range of one cycle -/

namespace CoreParameters

variable {core : CoreParameters} {cycle : Block} {range : BlockRange}

/-- The window holds the cycles that end after its start and not after its end. -/
def InWindow (core : CoreParameters) (cycle : Block) : Prop :=
  core.validFrom < cycle ∧ cycle ≤ core.validTo

/-- A block is one of the range of a cycle. -/
def Covers (core : CoreParameters) (cycle b : Block) : Prop :=
  ∃ range, core.cycleRange? cycle = some range ∧ range.contains b = true

theorem cycleRange?_of_inWindow (hlength : 0 < core.cycleLength) (h : core.InWindow cycle) :
    core.cycleRange? cycle =
      some ⟨max (UInt64.ofNat (cycle.toNat - core.cycleLength.toNat)) core.validFrom, cycle - 1⟩ := by
  have hin : ¬ (core.cycleLength = 0 ∨ cycle ≤ core.validFrom ∨ core.validTo < cycle) := by
    rintro (hzero | hfrom | hto)
    · rw [hzero] at hlength
      exact absurd hlength (by decide)
    · exact absurd hfrom (UInt64.not_le.mpr h.1)
    · exact absurd hto (UInt64.not_lt.mpr h.2)
  rw [cycleRange?, if_neg hin]

theorem inWindow_of_cycleRange? (h : core.cycleRange? cycle = some range) :
    0 < core.cycleLength ∧ core.InWindow cycle := by
  rw [cycleRange?] at h
  by_cases hout : core.cycleLength = 0 ∨ cycle ≤ core.validFrom ∨ core.validTo < cycle
  · rw [if_pos hout] at h
    cases h
  · simp only [not_or] at hout
    obtain ⟨hlength, hfrom, hto⟩ := hout
    refine ⟨?_, UInt64.not_le.mp hfrom, UInt64.not_lt.mp hto⟩
    exact UInt64.pos_iff_ne_zero.mpr hlength

/-- **A cycle has a range exactly if it is in the window.** -/
theorem isSome_cycleRange?_iff (hlength : 0 < core.cycleLength) :
    (core.cycleRange? cycle).isSome = true ↔ core.InWindow cycle := by
  constructor
  · intro h
    obtain ⟨range, hrange⟩ := Option.isSome_iff_exists.mp h
    exact (inWindow_of_cycleRange? hrange).2
  · intro h
    rw [cycleRange?_of_inWindow hlength h]
    rfl

theorem bounds_of_cycleRange? (h : core.cycleRange? cycle = some range) :
    range.first.toNat = max (cycle.toNat - core.cycleLength.toNat) core.validFrom.toNat ∧
      range.last.toNat = cycle.toNat - 1 := by
  obtain ⟨hlength, hin⟩ := inWindow_of_cycleRange? h
  rw [cycleRange?_of_inWindow hlength hin] at h
  obtain rfl := Option.some.inj h
  have hpos : core.validFrom.toNat < cycle.toNat := hin.1
  refine ⟨?_, UInt64.toNat_sub_of_le cycle 1 (UInt64.le_iff_toNat_le.mpr ?_)⟩
  · have hstart := Word.toNat_ofNat_sub cycle core.cycleLength.toNat
    show (if UInt64.ofNat (cycle.toNat - core.cycleLength.toNat) ≤ core.validFrom then core.validFrom
      else UInt64.ofNat (cycle.toNat - core.cycleLength.toNat)).toNat = _
    by_cases hcut : UInt64.ofNat (cycle.toNat - core.cycleLength.toNat) ≤ core.validFrom
    · have hle := UInt64.le_iff_toNat_le.mp hcut
      rw [if_pos hcut]
      omega
    · have hgt := UInt64.lt_iff_toNat_lt.mp (UInt64.not_le.mp hcut)
      rw [if_neg hcut, hstart]
      omega
  · show 1 ≤ cycle.toNat
    omega

/-- The range of a cycle goes from a block up to the one before the cycle's end. -/
theorem first_le_last_of_cycleRange? (h : core.cycleRange? cycle = some range) :
    range.first ≤ range.last := by
  obtain ⟨hlength, hfrom, -⟩ := inWindow_of_cycleRange? h
  obtain ⟨hfirst, hlast⟩ := bounds_of_cycleRange? h
  have hpos : 0 < core.cycleLength.toNat := hlength
  have hlt : core.validFrom.toNat < cycle.toNat := hfrom
  rw [UInt64.le_iff_toNat_le, hfirst, hlast]
  omega

/-- **The blocks of a cycle of the window.** -/
theorem covers_iff (hlength : 0 < core.cycleLength) {b : Block} :
    core.Covers cycle b ↔ core.InWindow cycle ∧
      cycle.toNat - core.cycleLength.toNat ≤ b.toNat ∧ core.validFrom.toNat ≤ b.toNat ∧
        b.toNat < cycle.toNat := by
  constructor
  · rintro ⟨range, hrange, hcontains⟩
    obtain ⟨hfirst, hlast⟩ := bounds_of_cycleRange? hrange
    obtain ⟨-, hin⟩ := inWindow_of_cycleRange? hrange
    have hpos : core.validFrom.toNat < cycle.toNat := hin.1
    rw [BlockRange.contains_iff, hfirst, hlast] at hcontains
    exact ⟨hin, by omega, by omega, by omega⟩
  · rintro ⟨hin, hstart, hfrom, hend⟩
    have hrange := cycleRange?_of_inWindow hlength hin
    obtain ⟨hfirst, hlast⟩ := bounds_of_cycleRange? hrange
    refine ⟨_, hrange, BlockRange.contains_iff.mpr ?_⟩
    rw [hfirst, hlast]
    omega

end CoreParameters

/-! ### The selected cycles -/

namespace RunSelection

variable {run : RunSelection} {length : UInt64}

/-- The end of the cycle some steps before the last one, if words can hold every number on the way. -/
def checkedCycle? (run : RunSelection) (length back : UInt64) : Option Block :=
  (Word.checkedMul? back length).bind (Word.checkedSub? run.paymentCycle)

theorem lt_reachable_iff (hlength : 0 < length) {back : Nat} :
    back < run.reachable length ↔
      back < run.cycles.toNat ∧ back * length.toNat ≤ run.paymentCycle.toNat := by
  have hpos : 0 < length.toNat := hlength
  have hne : length ≠ 0 := UInt64.pos_iff_ne_zero.mp hlength
  rw [reachable, if_neg hne, Nat.lt_min, Nat.lt_succ_iff, Nat.le_div_iff_mul_le hpos]

/-- **The selected cycles are lengths apart, as far back as there are blocks.** -/
theorem mem_paymentCycles_iff (hlength : 0 < length) {cycle : Block} :
    cycle ∈ run.paymentCycles length ↔
      ∃ back < run.cycles.toNat, back * length.toNat ≤ run.paymentCycle.toNat ∧
        cycle.toNat = run.paymentCycle.toNat - back * length.toNat := by
  simp only [paymentCycles, List.mem_map, List.mem_reverse, List.mem_range,
    lt_reachable_iff hlength]
  constructor
  · rintro ⟨back, ⟨hback, hle⟩, rfl⟩
    exact ⟨back, hback, hle, Word.toNat_ofNat_sub _ _⟩
  · rintro ⟨back, hback, hle, hcycle⟩
    exact ⟨back, ⟨hback, hle⟩, UInt64.toNat_inj.mp ((Word.toNat_ofNat_sub _ _).trans hcycle.symm)⟩

theorem pairwise_paymentCycles (hlength : 0 < length) :
    (run.paymentCycles length).Pairwise (· < ·) := by
  have hpos : 0 < length.toNat := hlength
  rw [paymentCycles, List.pairwise_map, List.pairwise_reverse]
  refine List.pairwise_lt_range.imp_of_mem fun {near far} _ hfar hlt => ?_
  have hle := ((lt_reachable_iff hlength).mp (List.mem_range.mp hfar)).2
  have hstep : near * length.toNat + length.toNat ≤ far * length.toNat := by
    rw [← Nat.succ_mul]
    exact Nat.mul_le_mul_right _ hlt
  rw [UInt64.lt_iff_toNat_lt, Word.toNat_ofNat_sub, Word.toNat_ofNat_sub]
  omega

theorem getLast?_paymentCycles (hlength : 0 < length) (hcycles : 1 ≤ run.cycles) :
    (run.paymentCycles length).getLast? = some run.paymentCycle := by
  have hone : 1 ≤ run.cycles.toNat := hcycles
  have hpos : 0 < run.reachable length := (lt_reachable_iff hlength).mpr ⟨hone, by omega⟩
  rw [paymentCycles, List.getLast?_map, List.getLast?_reverse, List.head?_range,
    if_neg (Nat.pos_iff_ne_zero.mp hpos)]
  simp

/-- Stepping back with checked words finds a cycle exactly if there are so many blocks. -/
theorem checkedCycle?_eq {back : Nat} (hback : back < run.cycles.toNat) :
    run.checkedCycle? length (UInt64.ofNat back) =
      if back * length.toNat ≤ run.paymentCycle.toNat then
        some (UInt64.ofNat (run.paymentCycle.toNat - back * length.toNat))
      else none := by
  have hcycles : run.cycles.toNat < 2 ^ 32 := run.cycles.toNat_lt
  have hcycle : run.paymentCycle.toNat < 2 ^ 64 := run.paymentCycle.toNat_lt
  have hword : (UInt64.ofNat back).toNat = back :=
    UInt64.toNat_ofNat_of_lt' (by simp only [UInt64.size]; omega)
  rw [checkedCycle?, Word.checkedMul?, hword]
  by_cases hfits : back * length.toNat < Word.count 64
  · have hproduct : (UInt64.ofNat back * length).toNat = back * length.toNat := by
      rw [UInt64.toNat_mul, hword]
      exact Nat.mod_eq_of_lt hfits
    rw [if_pos hfits, Option.bind_some, Word.checkedSub?]
    by_cases hle : back * length.toNat ≤ run.paymentCycle.toNat
    · have hsub : UInt64.ofNat back * length ≤ run.paymentCycle := by
        rw [UInt64.le_iff_toNat_le, hproduct]
        exact hle
      rw [if_pos hsub, if_pos hle, Option.some.injEq, ← UInt64.toNat_inj,
        UInt64.toNat_sub_of_le _ _ hsub, hproduct, Word.toNat_ofNat_sub]
    · rw [if_neg hle, if_neg (by rwa [UInt64.le_iff_toNat_le, hproduct])]
  · -- A product that is no word is greater than every block.
    have hgreat : 2 ^ 64 ≤ back * length.toNat := Nat.not_lt.mp hfits
    rw [if_neg hfits, Option.bind_none, if_neg (by omega)]

/-- **Checked words find the same cycles as exact numbers.** -/
theorem paymentCycles_eq_checked (hlength : 0 < length) :
    run.paymentCycles length =
      (List.range run.cycles.toNat).reverse.filterMap fun back =>
        run.checkedCycle? length (UInt64.ofNat back) := by
  obtain ⟨skipped, hskipped⟩ : ∃ skipped, run.cycles.toNat = run.reachable length + skipped := by
    refine Nat.exists_eq_add_of_le (Nat.not_lt.mp fun h => ?_)
    exact absurd ((lt_reachable_iff hlength).mp h).1 (Nat.lt_irrefl _)
  -- The cycles that can be reached come first, and all others are skipped.
  have hreached : (List.range (run.reachable length)).filterMap
      (fun back => run.checkedCycle? length (UInt64.ofNat back)) =
      (List.range (run.reachable length)).map fun back =>
        UInt64.ofNat (run.paymentCycle.toNat - back * length.toNat) := by
    rw [← List.filterMap_eq_map]
    refine List.filterMap_congr fun back hback => ?_
    obtain ⟨hcycles, hle⟩ := (lt_reachable_iff hlength).mp (List.mem_range.mp hback)
    rw [checkedCycle?_eq hcycles, if_pos hle]
    rfl
  have hrest : ((List.range skipped).map (run.reachable length + ·)).filterMap
      (fun back => run.checkedCycle? length (UInt64.ofNat back)) = [] := by
    refine List.filterMap_eq_nil_iff.mpr fun back hback => ?_
    obtain ⟨more, hmore, rfl⟩ := List.mem_map.mp hback
    have hcycles : run.reachable length + more < run.cycles.toNat := by
      rw [hskipped]
      exact Nat.add_lt_add_left (List.mem_range.mp hmore) _
    have hfar : ¬ (run.reachable length + more) * length.toNat ≤ run.paymentCycle.toNat :=
      fun hle => absurd ((lt_reachable_iff hlength).mpr ⟨hcycles, hle⟩) (by omega)
    rw [checkedCycle?_eq hcycles, if_neg hfar]
  rw [List.filterMap_reverse, hskipped, List.range_add, List.filterMap_append, hrest, hreached,
    List.append_nil, paymentCycles, List.map_reverse]

end RunSelection

/-! ### The cycles and the window -/

/-- The cycles of a selection tile the validity window. -/
structure CyclesTile (core : CoreParameters) (run : RunSelection) : Prop where
  /-- The cycles ascend. -/
  ascending : (run.paymentCycles core.cycleLength).Pairwise (· < ·)
  /-- The last one is the one that is asked for. -/
  last : (run.paymentCycles core.cycleLength).getLast? = some run.paymentCycle
  /-- The cycles are as many lengths apart as were asked for, as far as there are blocks. -/
  mem_iff : ∀ cycle, cycle ∈ run.paymentCycles core.cycleLength ↔
    ∃ back < run.cycles.toNat, back * core.cycleLength.toNat ≤ run.paymentCycle.toNat ∧
      cycle.toNat = run.paymentCycle.toNat - back * core.cycleLength.toNat
  /-- Checked words find these cycles, and skip no other. -/
  checked : run.paymentCycles core.cycleLength =
    (List.range run.cycles.toNat).reverse.filterMap fun back =>
      run.checkedCycle? core.cycleLength (UInt64.ofNat back)
  /-- A cycle has a range exactly if it is in the window. -/
  isSome_iff : ∀ cycle ∈ run.paymentCycles core.cycleLength,
    (core.cycleRange? cycle).isSome = true ↔ core.InWindow cycle
  /-- A range is in order. -/
  ordered : ∀ cycle ∈ run.paymentCycles core.cycleLength, ∀ range,
    core.cycleRange? cycle = some range → range.first ≤ range.last
  /-- No block is in the ranges of two cycles. -/
  disjoint : ∀ cycle ∈ run.paymentCycles core.cycleLength,
    ∀ other ∈ run.paymentCycles core.cycleLength, cycle ≠ other →
      ∀ b, ¬ (core.Covers cycle b ∧ core.Covers other b)
  /-- Up to the last cycle of the window every block from the first one on is covered. -/
  covered_iff : ∀ last ∈ run.paymentCycles core.cycleLength, core.InWindow last →
    (∀ cycle ∈ run.paymentCycles core.cycleLength, core.InWindow cycle → cycle ≤ last) →
      ∀ b, (∃ cycle ∈ run.paymentCycles core.cycleLength, core.Covers cycle b) ↔
        max core.validFrom.toNat
            (run.paymentCycle.toNat - run.cycles.toNat * core.cycleLength.toNat) ≤ b.toNat ∧
          b.toNat ≤ last.toNat - 1
  /-- If no cycle is in the window, nothing is covered. -/
  covered_empty : (∀ cycle ∈ run.paymentCycles core.cycleLength, ¬ core.InWindow cycle) →
    ∀ cycle ∈ run.paymentCycles core.cycleLength, ∀ b, ¬ core.Covers cycle b

namespace RunSelection

variable {core : CoreParameters} {run : RunSelection}

/-- A cycle ends where a later one starts, or before. -/
theorem add_length_le {length : UInt64} (hlength : 0 < length) {cycle later : Block}
    (hcycle : cycle ∈ run.paymentCycles length) (hlater : later ∈ run.paymentCycles length)
    (h : cycle < later) : cycle.toNat + length.toNat ≤ later.toNat := by
  obtain ⟨far, -, hfar, hcycle⟩ := (mem_paymentCycles_iff hlength).mp hcycle
  obtain ⟨near, -, hnear, hlater⟩ := (mem_paymentCycles_iff hlength).mp hlater
  have hlt : cycle.toNat < later.toNat := h
  have hsteps : near < far := by
    by_contra hge
    have hle := Nat.mul_le_mul_right length.toNat (Nat.not_lt.mp hge)
    omega
  have hstep : near * length.toNat + length.toNat ≤ far * length.toNat := by
    rw [← Nat.succ_mul]
    exact Nat.mul_le_mul_right _ hsteps
  omega

theorem eq_of_covers (hlength : 0 < core.cycleLength) {cycle other b : Block}
    (hcycle : cycle ∈ run.paymentCycles core.cycleLength)
    (hother : other ∈ run.paymentCycles core.cycleLength)
    (hcovers : core.Covers cycle b) (hcoversOther : core.Covers other b) : cycle = other := by
  obtain ⟨-, hstart, -, hend⟩ := (CoreParameters.covers_iff hlength).mp hcovers
  obtain ⟨-, hstartOther, -, hendOther⟩ := (CoreParameters.covers_iff hlength).mp hcoversOther
  rcases Nat.lt_trichotomy cycle.toNat other.toNat with hlt | heq | hgt
  · have hle := add_length_le hlength hcycle hother hlt
    omega
  · exact UInt64.toNat_inj.mp heq
  · have hle := add_length_le hlength hother hcycle hgt
    omega

theorem start_le_of_mem {length : UInt64} (hlength : 0 < length) {cycle : Block}
    (h : cycle ∈ run.paymentCycles length) :
    run.paymentCycle.toNat - run.cycles.toNat * length.toNat ≤ cycle.toNat - length.toNat := by
  obtain ⟨back, hback, -, hcycle⟩ := (mem_paymentCycles_iff hlength).mp h
  have hstep : back * length.toNat + length.toNat ≤ run.cycles.toNat * length.toNat := by
    rw [← Nat.succ_mul]
    exact Nat.mul_le_mul_right _ hback
  omega

/--
**A block below the last cycle is one of the blocks of a cycle not after it.**  The cycle
is the first one that ends after the block, and how many steps back that is, is found by
a division.
-/
theorem exists_cycle_of_lt {length : UInt64} (hlength : 0 < length) {last b : Block}
    (hlast : last ∈ run.paymentCycles length)
    (hstart : run.paymentCycle.toNat - run.cycles.toNat * length.toNat ≤ b.toNat)
    (hend : b.toNat < last.toNat) :
    ∃ cycle ∈ run.paymentCycles length, cycle ≤ last ∧
      cycle.toNat - length.toNat ≤ b.toNat ∧ b.toNat < cycle.toNat := by
  have hpos : 0 < length.toNat := hlength
  obtain ⟨near, -, hnear, hlastNat⟩ := (mem_paymentCycles_iff hlength).mp hlast
  -- The steps back to the first cycle that ends after the block.
  obtain ⟨back, hback⟩ : ∃ back, back = (run.paymentCycle.toNat - 1 - b.toNat) / length.toNat :=
    ⟨_, rfl⟩
  have hle : back * length.toNat ≤ run.paymentCycle.toNat - 1 - b.toNat := by
    rw [hback]
    exact Nat.div_mul_le_self _ _
  have hgt : run.paymentCycle.toNat - 1 - b.toNat < back * length.toNat + length.toNat := by
    rw [hback, ← Nat.succ_mul, Nat.mul_comm]
    exact Nat.lt_mul_div_succ _ hpos
  have hfew : back < run.cycles.toNat := by
    rw [hback, Nat.div_lt_iff_lt_mul hpos]
    omega
  have hfar : near ≤ back := by
    rw [hback, Nat.le_div_iff_mul_le hpos]
    omega
  have hsteps := Nat.mul_le_mul_right length.toNat hfar
  have hend' : (UInt64.ofNat (run.paymentCycle.toNat - back * length.toNat)).toNat =
      run.paymentCycle.toNat - back * length.toNat := Word.toNat_ofNat_sub _ _
  refine ⟨UInt64.ofNat (run.paymentCycle.toNat - back * length.toNat),
    (mem_paymentCycles_iff hlength).mpr ⟨back, hfew, by omega, hend'⟩, ?_, ?_, ?_⟩
  · rw [UInt64.le_iff_toNat_le]
    omega
  · omega
  · omega

/--
**The cycles of a selection tile the validity window**, whatever words the parameters and
the selection hold, as long as a cycle has a block and one cycle is selected.
-/
theorem cycles_tile_window (hlength : 0 < core.cycleLength) (hcycles : 1 ≤ run.cycles) :
    CyclesTile core run := by
  refine ⟨pairwise_paymentCycles hlength, getLast?_paymentCycles hlength hcycles,
    fun cycle => mem_paymentCycles_iff hlength, paymentCycles_eq_checked hlength,
    fun cycle _ => CoreParameters.isSome_cycleRange?_iff hlength,
    fun cycle _ range => CoreParameters.first_le_last_of_cycleRange?, ?_, ?_, ?_⟩
  · rintro cycle hcycle other hother hne b ⟨hcovers, hcoversOther⟩
    exact hne (eq_of_covers hlength hcycle hother hcovers hcoversOther)
  · intro last hlast hin hgreatest b
    constructor
    · rintro ⟨cycle, hcycle, hcovers⟩
      obtain ⟨hcycleIn, hstart, hfrom, hend⟩ := (CoreParameters.covers_iff hlength).mp hcovers
      have hle := UInt64.le_iff_toNat_le.mp (hgreatest cycle hcycle hcycleIn)
      have hfirst := start_le_of_mem hlength hcycle
      omega
    · rintro ⟨hstart, hend⟩
      have hfrom : core.validFrom.toNat < last.toNat := hin.1
      obtain ⟨cycle, hcycle, hle, hfirst, hlt⟩ :=
        exists_cycle_of_lt hlength hlast (b := b) (by omega) (by omega)
      refine ⟨cycle, hcycle, (CoreParameters.covers_iff hlength).mpr ⟨⟨?_, ?_⟩, hfirst, ?_, hlt⟩⟩
      · rw [UInt64.lt_iff_toNat_lt]
        omega
      · exact UInt64.le_trans hle hin.2
      · omega
  · intro hnone cycle hcycle b hcovers
    exact hnone cycle hcycle ((CoreParameters.covers_iff hlength).mp hcovers).1

/--
More cycles than there are blocks for, of a length whose multiples leave the words, at
the upper end of the words: these tile the window as well.
-/
theorem cycles_tile_window_extreme :
    (0 : UInt64) < 0x8000000000000000 ∧ (1 : UInt32) ≤ 0xffffffff ∧
      CyclesTile ⟨.empty, 0x8000000000000000, 5, 0xfffffffffffffffe, "0x0"⟩
        ⟨0xffffffffffffffff, "0xprogram", 0xffffffff⟩ :=
  ⟨by decide, by decide, cycles_tile_window (by decide) (by decide)⟩

end RunSelection

end Rewards
