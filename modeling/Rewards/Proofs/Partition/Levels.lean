/-
No block is covered twice, whatever the sizes are.

Sizes that do not nest leave gaps, since a smaller size resumes at its own next multiple, but
they never overlap.  What is said of the partitions is read off the levels.  Each level starts
at a multiple of its size and ends at the latest block rounded down to it, and the levels have
the sizes in their order (`map_size_levelsFrom`).  Once a level has contributed, all that
follow start at its limit or above (`le_first_of_resumed`), and as long as none has, the next
one starts at the first block rounded down.

The sizes count as a set: lists with the same sizes but zero have the same levels.
-/
import Rewards.Proofs.Partition.Tiling

namespace Rewards.Partition

/-! ### Rounding up -/

theorem dvd_roundUp (n size : Nat) : size ∣ roundUp n size :=
  Nat.dvd_mul_left size _

theorem le_roundUp {size : Nat} (n : Nat) (h : 0 < size) : n ≤ roundUp n size := by
  have hlt := lt_roundDown_add (n + size - 1) h
  rw [show roundDown (n + size - 1) size = roundUp n size from rfl] at hlt
  omega

/-- A number rounded up is not above a multiple if the number is not. -/
theorem roundUp_le_iff {n m size : Nat} (hpos : 0 < size) (h : size ∣ m) :
    roundUp n size ≤ m ↔ n ≤ m := by
  refine ⟨fun hle => Nat.le_trans (le_roundUp n hpos) hle, fun hle => ?_⟩
  have hround : roundUp n size ≤ n + size - 1 := roundDown_le (n + size - 1) size
  by_contra hlt
  -- the next multiple is a whole size further
  have hstep : size ≤ roundUp n size - m :=
    Nat.le_of_dvd (by omega) (Nat.dvd_sub (dvd_roundUp n size) h)
  omega

/-! ### The levels of some sizes -/

/-- Where the level of a size starts. -/
def levelStart (lower : Nat) (resumed : Bool) (size : Nat) : Nat :=
  if resumed then roundUp lower size else roundDown lower size

theorem dvd_levelStart (lower : Nat) (resumed : Bool) (size : Nat) :
    size ∣ levelStart lower resumed size := by
  cases resumed with
  | true => exact dvd_roundUp lower size
  | false => exact dvd_roundDown lower size

section Levels

variable {latest lower s : Nat} {resumed : Bool} {sizes : List Nat} {l : Level}

/-- A size that has room is where the smaller ones resume. -/
theorem levelsFrom_cons_of_lt (h : levelStart lower resumed s < roundDown latest s) :
    levelsFrom latest lower resumed (s :: sizes) =
      ⟨s, levelStart lower resumed s, roundDown latest s⟩ ::
        levelsFrom latest (roundDown latest s) true sizes := by
  rw [levelsFrom]
  exact congrArg (List.cons _) (if_pos h)

/-- A size that has no room leaves it to the smaller ones. -/
theorem levelsFrom_cons_of_le (h : roundDown latest s ≤ levelStart lower resumed s) :
    levelsFrom latest lower resumed (s :: sizes) =
      ⟨s, levelStart lower resumed s, roundDown latest s⟩ ::
        levelsFrom latest lower resumed sizes := by
  rw [levelsFrom]
  exact congrArg (List.cons _) (if_neg (Nat.not_lt.mpr h))

/-- Each size has its level, in the order of the sizes. -/
theorem map_size_levelsFrom : ∀ {lower : Nat} {resumed : Bool},
    (levelsFrom latest lower resumed sizes).map (·.size) = sizes := by
  induction sizes with
  | nil => intro lower resumed; rfl
  | cons s rest ih =>
      intro lower resumed
      rcases Nat.lt_or_ge (levelStart lower resumed s) (roundDown latest s) with hroom | hnone
      · rw [levelsFrom_cons_of_lt hroom, List.map_cons, ih]
      · rw [levelsFrom_cons_of_le hnone, List.map_cons, ih]

theorem size_mem_of_mem_levelsFrom (h : l ∈ levelsFrom latest lower resumed sizes) :
    l.size ∈ sizes := by
  have hmem := List.mem_map_of_mem (f := (·.size)) h
  rwa [map_size_levelsFrom] at hmem

/-- A level goes from a multiple of its size up to the latest block rounded down. -/
theorem aligned_of_mem_levelsFrom : ∀ {lower : Nat} {resumed : Bool},
    l ∈ levelsFrom latest lower resumed sizes →
      l.size ∣ l.first ∧ l.limit = roundDown latest l.size := by
  induction sizes with
  | nil => intro lower resumed h; cases h
  | cons s rest ih =>
      intro lower resumed h
      rcases Nat.lt_or_ge (levelStart lower resumed s) (roundDown latest s) with hroom | hnone
      · rw [levelsFrom_cons_of_lt hroom] at h
        rcases List.mem_cons.mp h with rfl | h
        · exact ⟨dvd_levelStart lower resumed s, rfl⟩
        · exact ih h
      · rw [levelsFrom_cons_of_le hnone] at h
        rcases List.mem_cons.mp h with rfl | h
        · exact ⟨dvd_levelStart lower resumed s, rfl⟩
        · exact ih h

/-- Levels that resume at a block start there or above. -/
theorem le_first_of_resumed (hpos : ∀ s ∈ sizes, 0 < s) : ∀ {lower : Nat},
    l ∈ levelsFrom latest lower true sizes → lower ≤ l.first := by
  induction sizes with
  | nil => intro lower h; cases h
  | cons s rest ih =>
      intro lower h
      obtain ⟨hs, hrest⟩ := List.forall_mem_cons.mp hpos
      have hstart : lower ≤ levelStart lower true s := le_roundUp lower hs
      rcases Nat.lt_or_ge (levelStart lower true s) (roundDown latest s) with hroom | hnone
      · rw [levelsFrom_cons_of_lt hroom] at h
        rcases List.mem_cons.mp h with rfl | h
        · exact hstart
        · exact Nat.le_trans (Nat.le_trans hstart (Nat.le_of_lt hroom)) (ih hrest h)
      · rw [levelsFrom_cons_of_le hnone] at h
        rcases List.mem_cons.mp h with rfl | h
        · exact hstart
        · exact ih hrest h

/-- Where a level has contributed, the next ones start at its limit or above. -/
theorem pairwise_levelsFrom (hpos : ∀ s ∈ sizes, 0 < s) : ∀ {lower : Nat} {resumed : Bool},
    (levelsFrom latest lower resumed sizes).Pairwise
      (fun l m => l.first < l.limit → l.limit ≤ m.first) := by
  induction sizes with
  | nil => intro lower resumed; exact List.Pairwise.nil
  | cons s rest ih =>
      intro lower resumed
      have hrest := (List.forall_mem_cons.mp hpos).2
      rcases Nat.lt_or_ge (levelStart lower resumed s) (roundDown latest s) with hroom | hnone
      · rw [levelsFrom_cons_of_lt hroom]
        exact List.pairwise_cons.mpr ⟨fun m hm _ => le_first_of_resumed hrest hm, ih hrest⟩
      · rw [levelsFrom_cons_of_le hnone]
        exact List.pairwise_cons.mpr
          ⟨fun m _ hroom => absurd hroom (Nat.not_lt.mpr hnone), ih hrest⟩

/-- The first partition of all covers the block that was asked for. -/
theorem covers_of_head?_levelsFrom (hpos : ∀ s ∈ sizes, 0 < s) :
    ∀ p ∈ ((levelsFrom latest lower false sizes).flatMap Level.partitions).head?,
      p.Covers lower := by
  induction sizes with
  | nil => intro p hp; cases hp
  | cons s rest ih =>
      obtain ⟨hs, hrest⟩ := List.forall_mem_cons.mp hpos
      rcases Nat.lt_or_ge (levelStart lower false s) (roundDown latest s) with hroom | hnone
      · rw [levelsFrom_cons_of_lt hroom, List.flatMap_cons]
        exact Level.covers_of_head? hs hroom _
      · rw [levelsFrom_cons_of_le hnone, List.flatMap_cons, Level.partitions_of_le hnone,
          List.nil_append]
        exact ih hrest

end Levels

/-- The partitions of a level have its size, start at multiples of it and lie between its ends. -/
theorem Level.of_mem_partitions {l : Level} {p : Partition} (hpos : 0 < l.size)
    (hfirst : l.size ∣ l.first) (hlimit : l.size ∣ l.limit) (hp : p ∈ l.partitions) :
    p.size = l.size ∧ l.size ∣ p.start ∧ p.stop = p.start + l.size ∧ l.first ≤ p.start ∧
      p.stop ≤ l.limit := by
  have hroom : l.first ≤ l.limit := by
    by_contra hlt
    rw [Level.partitions_of_le (by omega)] at hp
    cases hp
  obtain ⟨hle, -, hstop⟩ := (Level.run hpos hfirst hlimit hroom).bounds hp
  obtain ⟨i, -, rfl⟩ := List.mem_map.mp hp
  exact ⟨rfl, Nat.dvd_add hfirst (Nat.dvd_mul_left _ _), rfl, hle, hstop⟩

/-! ### The levels of a table -/

/-- What a level of some sizes is. -/
structure Level.IsOf (latest : Nat) (sizes : List UInt64) (l : Level) : Prop where
  size_mem : l.size ∈ usableSizes sizes
  size_pos : 0 < l.size
  dvd_first : l.size ∣ l.first
  limit_eq : l.limit = roundDown latest l.size

namespace Level.IsOf

variable {latest : Nat} {sizes : List UInt64} {l : Level} {p : Partition}

theorem dvd_limit (h : l.IsOf latest sizes) : l.size ∣ l.limit :=
  h.limit_eq ▸ dvd_roundDown latest l.size

theorem limit_le (h : l.IsOf latest sizes) : l.limit ≤ latest :=
  h.limit_eq ▸ roundDown_le latest l.size

theorem of_mem_partitions (h : l.IsOf latest sizes) (hp : p ∈ l.partitions) :
    p.size = l.size ∧ l.size ∣ p.start ∧ p.stop = p.start + l.size ∧ l.first ≤ p.start ∧
      p.stop ≤ l.limit :=
  Level.of_mem_partitions h.size_pos h.dvd_first h.dvd_limit hp

/-- A level that has a partition has room. -/
theorem lt_of_mem_partitions (h : l.IsOf latest sizes) (hp : p ∈ l.partitions) :
    l.first < l.limit := by
  have hpos := h.size_pos
  obtain ⟨-, -, hstop, hfirst, hlimit⟩ := h.of_mem_partitions hp
  omega

theorem pairwise_partitions (h : l.IsOf latest sizes) :
    l.partitions.Pairwise (fun p q => p.stop ≤ q.start) := by
  by_cases hroom : l.first ≤ l.limit
  · exact (Level.run h.size_pos h.dvd_first h.dvd_limit hroom).pairwise
  · rw [Level.partitions_of_le (by omega)]
    exact List.Pairwise.nil

end Level.IsOf

theorem isOf_of_mem_levels {first latest : Block} {sizes : List UInt64} {l : Level}
    (h : l ∈ levels first latest sizes) : l.IsOf latest.toNat sizes := by
  have hmem := size_mem_of_mem_levelsFrom h
  obtain ⟨hfirst, hlimit⟩ := aligned_of_mem_levelsFrom h
  exact ⟨hmem, (mem_usableSizes.mp hmem).1, hfirst, hlimit⟩

/-! ### Partitions of sizes in whatever order -/

/-- Partitions as they are laid out from some block on up to the latest one. -/
structure LaidOut (first latest : Nat) (sizes : List UInt64) (ps : List Partition) : Prop where
  /-- Each one ends where the next one starts, or below. -/
  ascending : ps.Pairwise (fun p q => p.stop ≤ q.start)
  /-- Greater sizes come first. -/
  coarse_first : ps.Pairwise (fun p q => q.size ≤ p.size)
  /-- The size of each one is one of the sizes, and no zero. -/
  size_mem : ∀ p ∈ ps, 0 < p.size ∧ ∃ size ∈ sizes, size.toNat = p.size
  /-- Each one starts at a multiple of its size, covers as many blocks, and all are exported. -/
  exported : ∀ p ∈ ps, p.size ∣ p.start ∧ p.stop = p.start + p.size ∧ p.stop ≤ latest
  /-- The first one covers the first block. -/
  covers_first : ∀ p ∈ ps.head?, p.Covers first

theorem laidOut_complete (first latest : Block) (sizes : List UInt64) :
    LaidOut first.toNat latest.toNat sizes (complete first latest sizes) := by
  have hpos : ∀ s ∈ usableSizes sizes, 0 < s := fun s hs => (mem_usableSizes.mp hs).1
  have hmap : (levels first latest sizes).map (·.size) = usableSizes sizes := map_size_levelsFrom
  have hsizes := pairwise_usableSizes sizes
  rw [← hmap, List.pairwise_map] at hsizes
  constructor
  case ascending =>
    refine List.pairwise_flatMap.mpr
      ⟨fun l hl => (isOf_of_mem_levels hl).pairwise_partitions, ?_⟩
    refine (pairwise_levelsFrom hpos).imp_of_mem fun {l m} hl hm hlm p hp q hq => ?_
    have hl := isOf_of_mem_levels hl
    have hstop := (hl.of_mem_partitions hp).2.2.2.2
    have hstart := ((isOf_of_mem_levels hm).of_mem_partitions hq).2.2.2.1
    exact Nat.le_trans hstop (Nat.le_trans (hlm (hl.lt_of_mem_partitions hp)) hstart)
  case coarse_first =>
    refine List.pairwise_flatMap.mpr ⟨fun l hl => ?_, ?_⟩
    · refine List.pairwise_of_forall_mem_list fun p hp q hq => ?_
      rw [((isOf_of_mem_levels hl).of_mem_partitions hp).1,
        ((isOf_of_mem_levels hl).of_mem_partitions hq).1]
    · refine hsizes.imp_of_mem fun {l m} hl hm hlt p hp q hq => ?_
      rw [((isOf_of_mem_levels hl).of_mem_partitions hp).1,
        ((isOf_of_mem_levels hm).of_mem_partitions hq).1]
      exact Nat.le_of_lt hlt
  case size_mem =>
    intro p hp
    obtain ⟨l, hl, hp⟩ := List.mem_flatMap.mp hp
    have hl := isOf_of_mem_levels hl
    rw [(hl.of_mem_partitions hp).1]
    exact mem_usableSizes.mp hl.size_mem
  case exported =>
    intro p hp
    obtain ⟨l, hl, hp⟩ := List.mem_flatMap.mp hp
    have hl := isOf_of_mem_levels hl
    obtain ⟨hsize, hstart, hstop, -, hlimit⟩ := hl.of_mem_partitions hp
    rw [hsize]
    exact ⟨hstart, hstop, Nat.le_trans hlimit hl.limit_le⟩
  case covers_first => exact covers_of_head?_levelsFrom hpos

/-! ### Levels in words -/

section Words

variable {first latest : Block} {sizes : List UInt64} {l : Level}

/-- Only the first block of a level can be no word. -/
theorem Level.IsOf.fitsWords_iff (h : l.IsOf latest.toNat sizes) :
    l.FitsWords ↔ l.first < Word.count 64 :=
  ⟨fun hfits => hfits.first_lt,
    fun hlt => Level.fitsWords latest.toNat_lt h.size_pos h.dvd_first h.limit_eq hlt⟩

theorem Level.IsOf.fits_iff (h : l.IsOf latest.toNat sizes) : l.fits = true ↔ l.FitsWords := by
  have hfits : l.fits = true ↔ (l.first < Word.count 64 ∧ l.limit < Word.count 64) ∧
      ∀ p ∈ l.partitions, p.stop < Word.count 64 := by
    simp only [Level.fits, Bool.and_eq_true, decide_eq_true_eq, List.all_eq_true]
  rw [hfits]
  constructor
  · rintro ⟨⟨hfirst, -⟩, -⟩
    exact h.fitsWords_iff.mpr hfirst
  · intro hwords
    exact ⟨⟨hwords.first_lt, hwords.limit_lt⟩, fun p hp => (hwords.stop_lt p hp).2⟩

/-- **There is an answer exactly if all that is computed is a word.** -/
theorem complete?_eq_some_iff {ps : List Partition} :
    complete? first latest sizes = some ps ↔
      (∀ l ∈ levels first latest sizes, l.FitsWords) ∧ complete first latest sizes = ps := by
  have hall : (levels first latest sizes).all Level.fits = true ↔
      ∀ l ∈ levels first latest sizes, l.FitsWords := by
    rw [List.all_eq_true]
    exact forall₂_congr fun l hl => (isOf_of_mem_levels hl).fits_iff
  rw [complete?, ← hall]
  split
  · next hfits => simp [hfits]
  · next hfits => simp [hfits]

end Words

/--
**No block is covered twice, whatever the sizes are.**  If all that is computed is a word, the
complete partitions come one after the other, greater sizes first, each at a multiple of its
size and exported as a whole, and the first one covers the first block.  They stay the same if
the sizes are given in another order, repeated, or mixed with zeros.
-/
theorem covers_no_block_twice {first latest : Block} {sizes : List UInt64}
    (hwords : ∀ l ∈ levels first latest sizes, l.FitsWords) :
    ∃ ps, complete? first latest sizes = some ps ∧ LaidOut first.toNat latest.toNat sizes ps ∧
      ps.Pairwise (fun p q => ∀ b, p.Covers b → ¬ q.Covers b) ∧
      ∀ sizes' : List UInt64, (∀ size, size ≠ 0 → (size ∈ sizes ↔ size ∈ sizes')) →
        complete? first latest sizes' = some ps := by
  have hlaid := laidOut_complete first latest sizes
  have hcomplete := complete?_eq_some_iff.mpr ⟨hwords, rfl⟩
  refine ⟨complete first latest sizes, hcomplete, hlaid, ?_, fun sizes' hsizes => ?_⟩
  · refine hlaid.ascending.imp fun hle b hp hq => ?_
    exact absurd (Nat.lt_of_lt_of_le hp.2 hle) (Nat.not_lt.mpr hq.1)
  · rw [← hcomplete, complete?, complete?, complete, complete, levels, levels,
      usableSizes_congr hsizes]

/-- Sizes that do not nest leave the blocks from 200 to 210 out and cover none of the others twice. -/
theorem covers_no_block_twice_gap :
    (∀ l ∈ levels 0 260 [30, 0, 100, 30], l.FitsWords) ∧
      complete? 0 260 [30, 0, 100, 30] = some [⟨100, 0, 100⟩, ⟨100, 100, 200⟩, ⟨30, 210, 240⟩] ∧
      LaidOut 0 260 [30, 0, 100, 30] [⟨100, 0, 100⟩, ⟨100, 100, 200⟩, ⟨30, 210, 240⟩] ∧
      complete? 0 260 [100, 30] = some [⟨100, 0, 100⟩, ⟨100, 100, 200⟩, ⟨30, 210, 240⟩] := by
  have hcomplete : complete? 0 260 [30, 0, 100, 30] =
      some [⟨100, 0, 100⟩, ⟨100, 100, 200⟩, ⟨30, 210, 240⟩] := by
    decide +kernel
  have hwords := (complete?_eq_some_iff.mp hcomplete).1
  obtain ⟨ps, hps, hlaid, -, hsame⟩ := covers_no_block_twice hwords
  obtain rfl := Option.some.inj (hps.symm.trans hcomplete)
  refine ⟨hwords, hcomplete, hlaid, hsame [100, 30] fun size hsize => ?_⟩
  simp only [List.mem_cons, List.not_mem_nil, or_false]
  tauto

end Rewards.Partition
