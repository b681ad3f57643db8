/-
When the numbers of partitions are no words.

Rounding down and adding a size never lead beyond the latest block, which is a word.  Rounding
up can: a size resumes where the greater ones ended, at its next multiple, and near the end of
the words there may be none.  So what is computed leaves the words exactly if, at some size,
the last partition of the greater ones ends above the greatest multiple of the size that is a
word (`complete?_eq_none_iff`).  It does not where the sizes nest, because then every size has a
multiple where the greater ones end, nor where no size leads from the latest block beyond the words.

Where it does leave them, the product taken as a word is less than where the greater sizes ended.
-/
import Rewards.Proofs.Partition.Levels

namespace Rewards.Partition

/-- A run that is not empty ends where its last partition does. -/
theorem Run.stop_of_getLast? {a b : Nat} {ps : List Partition} (h : Run a b ps) {p : Partition}
    (hp : ps.getLast? = some p) : p.stop = b := by
  induction h with
  | nil n => cases hp
  | @cons q start stop rest hstart hpos hrest ih =>
      cases hrest with
      | nil n =>
          obtain rfl := Option.some.inj hp
          rfl
      | cons hstart' hpos' hrest' =>
          rw [List.getLast?_cons_cons] at hp
          exact ih hp

/-- A level that has room has a last partition, which ends at its limit. -/
theorem Level.exists_getLast? {l : Level} (hpos : 0 < l.size) (hfirst : l.size ∣ l.first)
    (hlimit : l.size ∣ l.limit) (hroom : l.first < l.limit) :
    ∃ p, l.partitions.getLast? = some p ∧ p.stop = l.limit := by
  have hrun := Level.run hpos hfirst hlimit (Nat.le_of_lt hroom)
  cases hlast : l.partitions.getLast? with
  | none =>
      obtain ⟨p, ⟨hp, -⟩, -⟩ := hrun.existsUnique_covers (Nat.le_refl _) hroom
      rw [List.getLast?_eq_none_iff.mp hlast] at hp
      cases hp
  | some p => exact ⟨p, rfl, hrun.stop_of_getLast? hlast⟩

/-- **A level starts where the last partition before it ended, rounded up**, and without one as the
first of all. -/
theorem first_of_levelsFrom_eq_append {latest : Nat} {l : Level} {after : List Level} :
    ∀ {before : List Level} {sizes : List Nat} {lower : Nat} {resumed : Bool},
      (∀ s ∈ sizes, 0 < s) → levelsFrom latest lower resumed sizes = before ++ l :: after →
        l.first = (before.flatMap Level.partitions).getLast?.elim
          (levelStart lower resumed l.size) fun p => roundUp p.stop l.size := by
  intro before
  induction before with
  | nil =>
      intro sizes lower resumed _ h
      cases sizes with
      | nil => cases h
      | cons s rest =>
          rw [levelsFrom] at h
          rw [← (List.cons.inj h).1]
          rfl
  | cons m before ih =>
      intro sizes lower resumed hpos h
      cases sizes with
      | nil => cases h
      | cons s rest =>
          obtain ⟨hs, hrest⟩ := List.forall_mem_cons.mp hpos
          rw [List.flatMap_cons, List.getLast?_append]
          rcases Nat.lt_or_ge (levelStart lower resumed s) (roundDown latest s) with hroom | hnone
          · rw [levelsFrom_cons_of_lt hroom] at h
            obtain ⟨hm, htail⟩ := List.cons.inj h
            obtain ⟨p, hp, hstop⟩ : ∃ p, m.partitions.getLast? = some p ∧
                p.stop = roundDown latest s := by
              rw [← hm]
              exact Level.exists_getLast? hs (dvd_levelStart lower resumed s)
                (dvd_roundDown latest s) hroom
            rw [ih hrest htail, hp]
            cases (before.flatMap Level.partitions).getLast? with
            | some q => rfl
            | none => exact congrArg (roundUp · l.size) hstop.symm
          · rw [levelsFrom_cons_of_le hnone] at h
            obtain ⟨rfl, htail⟩ := List.cons.inj h
            rw [ih hrest htail, Level.partitions_of_le hnone]
            cases (before.flatMap Level.partitions).getLast? with
            | some q => rfl
            | none => rfl

/-- A number rounded up is a word if it is not above the greatest multiple that is a word. -/
theorem roundUp_lt_iff {n size : Nat} (hpos : 0 < size) :
    roundUp n size < Word.count 64 ↔ n ≤ roundDown (Word.count 64 - 1) size := by
  have hcount : 0 < Word.count 64 := by decide
  rw [← roundUp_le_iff hpos (dvd_roundDown _ size), le_roundDown_iff hpos (dvd_roundUp n size)]
  omega

variable {first latest : Block} {sizes : List UInt64}

theorem complete?_eq_none_iff_exists :
    complete? first latest sizes = none ↔
      ∃ l ∈ levels first latest sizes, Word.count 64 ≤ l.first := by
  have hsome : complete? first latest sizes ≠ none ↔
      ∀ l ∈ levels first latest sizes, l.first < Word.count 64 := by
    rw [Option.ne_none_iff_exists']
    simp only [complete?_eq_some_iff, exists_and_left, exists_eq', and_true]
    exact forall₂_congr fun l hl => (isOf_of_mem_levels hl).fitsWords_iff
  rw [← not_iff_not]
  simpa only [not_exists, not_and, Nat.not_le] using hsome

/-- **There is no answer exactly if some size has no multiple to resume at that is a word.** -/
theorem complete?_eq_none_iff :
    complete? first latest sizes = none ↔
      ∃ before l after p, levels first latest sizes = before ++ l :: after ∧
        (before.flatMap Level.partitions).getLast? = some p ∧
        roundDown (Word.count 64 - 1) l.size < p.stop := by
  have hpos : ∀ s ∈ usableSizes sizes, 0 < s := fun s hs => (mem_usableSizes.mp hs).1
  rw [complete?_eq_none_iff_exists]
  constructor
  · rintro ⟨l, hl, hlarge⟩
    obtain ⟨before, after, hsplit⟩ := List.append_of_mem hl
    have hfirst := first_of_levelsFrom_eq_append hpos hsplit
    have hsize := (isOf_of_mem_levels hl).size_pos
    cases hlast : (before.flatMap Level.partitions).getLast? with
    | none =>
        -- as long as nothing is collected, the first block is rounded down
        rw [hlast] at hfirst
        have hle : l.first ≤ first.toNat := hfirst ▸ roundDown_le _ _
        have hlt : first.toNat < Word.count 64 := first.toNat_lt
        omega
    | some p =>
        rw [hlast, Option.elim_some] at hfirst
        refine ⟨before, l, after, p, hsplit, hlast, ?_⟩
        rw [← Nat.not_le, ← roundUp_lt_iff hsize, ← hfirst]
        exact Nat.not_lt.mpr hlarge
  · rintro ⟨before, l, after, p, hsplit, hlast, hlt⟩
    have hl : l ∈ levels first latest sizes := by
      rw [hsplit]
      simp
    have hfirst := first_of_levelsFrom_eq_append hpos hsplit
    rw [hlast, Option.elim_some] at hfirst
    refine ⟨l, hl, ?_⟩
    rw [hfirst, ← Nat.not_lt, roundUp_lt_iff (isOf_of_mem_levels hl).size_pos]
    exact Nat.not_le.mpr hlt

/-- There is an answer if no size leads from the latest block beyond the words. -/
theorem exists_complete?_of_add_le
    (h : ∀ size ∈ sizes, latest.toNat + size.toNat ≤ Word.count 64) :
    ∃ ps, complete? first latest sizes = some ps := by
  rw [← Option.ne_none_iff_exists']
  intro hnone
  obtain ⟨before, l, after, p, hsplit, hlast, hlt⟩ := complete?_eq_none_iff.mp hnone
  have hp : p ∈ complete first latest sizes := by
    rw [complete, hsplit, List.flatMap_append]
    exact List.mem_append_left _ (List.mem_of_getLast? hlast)
  have hstop := ((laidOut_complete first latest sizes).exported p hp).2.2
  have hlevel : l ∈ levels first latest sizes := by
    rw [hsplit]
    simp
  have hl : l.IsOf latest.toNat sizes := isOf_of_mem_levels hlevel
  obtain ⟨size, hmem, hsize⟩ := (mem_usableSizes.mp hl.size_mem).2
  have hroom := h size hmem
  have hmultiple := lt_roundDown_add (Word.count 64 - 1) hl.size_pos
  omega

/--
**What is computed leaves the words only to resume.**  Of a level, the limit and the ends of its
partitions are not above the latest block, so all that is computed for it is a word if its first
block is.  That one is none exactly if the last partition of the greater sizes ends above
the greatest multiple of the size that is a word; it always is one if the sizes nest, or if no size
leads from the latest block beyond the words.
-/
theorem leaves_words_only_to_resume (first latest : Block) (sizes : List UInt64) :
    (∀ l ∈ levels first latest sizes, l.limit ≤ latest.toNat ∧
      (∀ p ∈ l.partitions, p.start + l.size = p.stop ∧ p.stop ≤ latest.toNat) ∧
      (l.FitsWords ↔ l.first < Word.count 64)) ∧
    (complete? first latest sizes = none ↔
      ∃ before l after p, levels first latest sizes = before ++ l :: after ∧
        (before.flatMap Level.partitions).getLast? = some p ∧
        roundDown (Word.count 64 - 1) l.size < p.stop) ∧
    (Nested (usableSizes sizes) ∨ (∀ size ∈ sizes, latest.toNat + size.toNat ≤ Word.count 64) →
      ∃ ps, complete? first latest sizes = some ps) := by
  refine ⟨fun l hl => ?_, complete?_eq_none_iff, ?_⟩
  · have hl := isOf_of_mem_levels hl
    refine ⟨hl.limit_le, fun p hp => ?_, hl.fitsWords_iff⟩
    obtain ⟨-, -, hstop, -, hlimit⟩ := hl.of_mem_partitions hp
    exact ⟨hstop.symm, Nat.le_trans hlimit hl.limit_le⟩
  · rintro (hnested | hadd)
    · have hfits := (run_of_fresh latest.toNat_lt first.toNat_lt hnested).2
      exact ⟨_, complete?_eq_some_iff.mpr ⟨hfits, rfl⟩⟩
    · exact exists_complete?_of_add_le hadd

/-- **Rounding up can leave the words.**  A partition ends at the last block of all, and the smaller
size resumes at a product that is no word; taken as a word it is 4. -/
theorem rounding_up_leaves_words :
    levels 0 18446744073709551615 [18446744073709551615, 4611686018427387905] =
        [⟨18446744073709551615, 0, 18446744073709551615⟩,
          ⟨4611686018427387905, 18446744073709551620, 13835058055282163715⟩] ∧
      ¬ Level.FitsWords ⟨4611686018427387905, 18446744073709551620, 13835058055282163715⟩ ∧
      (UInt64.ofNat 18446744073709551620).toNat = 4 ∧
      complete? 0 18446744073709551615 [18446744073709551615, 4611686018427387905] = none := by
  refine ⟨by decide +kernel, fun hfits => ?_, by decide +kernel, by decide +kernel⟩
  exact absurd hfits.first_lt (by decide +kernel)

end Rewards.Partition
