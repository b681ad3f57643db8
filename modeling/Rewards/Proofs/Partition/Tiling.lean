/-
The partitions of a table tile the blocks that they cover.

Going from one size to the next, what has been collected so far is always a run: its
partitions follow one another without a gap (`Run`).  Each size extends the run from
where it ends.  It can, because the run ends at a multiple of a greater size, and the
sizes nest; so rounding up to the next multiple of the smaller size changes nothing.
The run starts at a block rounded down, and each size takes it as far as the size is
complete, the smallest one the furthest.

Cutting a run off behind a block leaves a run that covers the block, so every block of
a range that is exported at all lies in exactly one of the partitions that are read.
-/
import Rewards.Proofs.Partition.Sizes

namespace Rewards.Partition

/-- Whether a block lies in a partition. -/
def Covers (p : Partition) (b : Nat) : Prop :=
  p.start ≤ b ∧ b < p.stop

/-! ### Runs of partitions -/

/-- Partitions that follow one another from one block up to another. -/
inductive Run : Nat → Nat → List Partition → Prop
  | nil (n : Nat) : Run n n []
  | cons {p : Partition} {start stop : Nat} {rest : List Partition} (hstart : p.start = start)
      (hpos : start < p.stop) (hrest : Run p.stop stop rest) : Run start stop (p :: rest)

namespace Run

variable {a b c : Nat} {ps qs : List Partition}

theorem append (h : Run a b ps) (h' : Run b c qs) : Run a c (ps ++ qs) := by
  induction h with
  | nil n => exact h'
  | cons hstart hpos hrest ih => exact Run.cons hstart hpos (ih h')

theorem le (h : Run a b ps) : a ≤ b := by
  induction h with
  | nil n => exact Nat.le_refl n
  | cons hstart hpos hrest ih => omega

/-- A partition of a run lies between its ends. -/
theorem bounds (h : Run a b ps) {p : Partition} (hp : p ∈ ps) :
    a ≤ p.start ∧ p.start < p.stop ∧ p.stop ≤ b := by
  induction h with
  | nil n => cases hp
  | cons hstart hpos hrest ih =>
      rcases List.mem_cons.mp hp with rfl | hp
      · exact ⟨by omega, by omega, hrest.le⟩
      · have := ih hp
        omega

/-- Each partition of a run ends where the next one starts. -/
theorem isChain (h : Run a b ps) : ps.IsChain (fun p q => p.stop = q.start) := by
  induction h with
  | nil n => exact List.IsChain.nil
  | cons hstart hpos hrest ih =>
      cases hrest with
      | nil n => exact List.IsChain.singleton _
      | cons hstart' hpos' hrest' => exact List.IsChain.cons_cons hstart'.symm ih

/-- The partitions of a run come one after the other. -/
theorem pairwise (h : Run a b ps) : ps.Pairwise (fun p q => p.stop ≤ q.start) := by
  induction h with
  | nil n => exact List.Pairwise.nil
  | cons hstart hpos hrest ih =>
      exact List.pairwise_cons.mpr ⟨fun q hq => (hrest.bounds hq).1, ih⟩

/-- **Every block between the ends of a run lies in exactly one of its partitions.** -/
theorem existsUnique_covers (h : Run a b ps) {n : Nat} (ha : a ≤ n) (hb : n < b) :
    ∃! p, p ∈ ps ∧ p.Covers n := by
  induction h with
  | nil m => omega
  | @cons p start stop rest hstart hpos hrest ih =>
      by_cases hfirst : n < p.stop
      · refine ⟨p, ⟨List.mem_cons_self, by omega, hfirst⟩, ?_⟩
        rintro q ⟨hq, hcovers⟩
        rcases List.mem_cons.mp hq with rfl | hq
        · rfl
        · have := (hrest.bounds hq).1
          have := hcovers.1
          omega
      · obtain ⟨q, ⟨hq, hcovers⟩, hunique⟩ := ih (by omega) hb
        refine ⟨q, ⟨List.mem_cons_of_mem _ hq, hcovers⟩, ?_⟩
        rintro r ⟨hr, hrcovers⟩
        rcases List.mem_cons.mp hr with rfl | hr
        · exact absurd hrcovers.2 hfirst
        · exact hunique r ⟨hr, hrcovers⟩

/-- Cut off behind a block from its first one on, a run stays one and covers that block if it did. -/
theorem filter_start (h : Run a b ps) {last : Nat} (hlast : a ≤ last) :
    ∃ stop, Run a stop (ps.filter (fun p => p.start ≤ last)) ∧ stop ≤ b ∧
      (stop = b ∨ last < stop) := by
  induction h with
  | nil n => exact ⟨n, Run.nil n, Nat.le_refl n, Or.inl rfl⟩
  | @cons p start stop rest hstart hpos hrest ih =>
      rw [List.filter_cons_of_pos (by simpa [hstart] using hlast)]
      by_cases hnext : p.stop ≤ last
      · obtain ⟨stop', hrun, hle, hend⟩ := ih hnext
        exact ⟨stop', Run.cons hstart hpos hrun, hle, hend⟩
      · -- Everything behind the first partition starts behind the block.
        have hnone : rest.filter (fun q => q.start ≤ last) = [] := by
          refine List.filter_eq_nil_iff.mpr fun q hq => ?_
          have := (hrest.bounds hq).1
          simp only [decide_eq_true_eq]
          omega
        rw [hnone]
        exact ⟨p.stop, Run.cons hstart hpos (Run.nil _), hrest.le, Or.inr (by omega)⟩

end Run

/-! ### Rounding -/

theorem roundDown_le (n size : Nat) : roundDown n size ≤ n :=
  Nat.div_mul_le_self n size

theorem dvd_roundDown (n size : Nat) : size ∣ roundDown n size :=
  Nat.dvd_mul_left size (n / size)

theorem lt_roundDown_add {size : Nat} (n : Nat) (h : 0 < size) : n < roundDown n size + size :=
  Nat.lt_div_mul_add h

/-- A multiple is not above a number if it is not above the number rounded down. -/
theorem le_roundDown_iff {n m size : Nat} (hpos : 0 < size) (h : size ∣ m) :
    m ≤ roundDown n size ↔ m ≤ n := by
  refine ⟨fun hle => Nat.le_trans hle (roundDown_le n size), fun hle => ?_⟩
  obtain ⟨k, rfl⟩ := h
  rw [roundDown, Nat.mul_comm]
  exact Nat.mul_le_mul_right size ((Nat.le_div_iff_mul_le hpos).mpr (by rwa [Nat.mul_comm]))

theorem roundDown_lt_roundDown_iff {n m size : Nat} (hpos : 0 < size) :
    roundDown n size < roundDown m size ↔ n < roundDown m size := by
  constructor
  · intro h
    by_contra hle
    have := (le_roundDown_iff (n := n) hpos (dvd_roundDown m size)).mpr (Nat.not_lt.mp hle)
    omega
  · intro h
    have := roundDown_le n size
    omega

theorem roundUp_of_dvd {n size : Nat} (hpos : 0 < size) (h : size ∣ n) : roundUp n size = n := by
  obtain ⟨k, rfl⟩ := h
  have hdiv : (size * k + size - 1) / size = k := by
    rw [show size * k + size - 1 = size - 1 + size * k by omega, Nat.add_mul_div_left _ _ hpos,
      Nat.div_eq_of_lt (by omega), Nat.zero_add]
  rw [roundUp, hdiv, Nat.mul_comm]

/-! ### The run of a level -/

/-- The partitions of one size between two multiples of it are a run. -/
theorem Level.run {l : Level} (hpos : 0 < l.size) (hfirst : l.size ∣ l.first)
    (hlimit : l.size ∣ l.limit) (hle : l.first ≤ l.limit) : Run l.first l.limit l.partitions := by
  obtain ⟨k, hk⟩ := Nat.dvd_sub hlimit hfirst
  have hend : l.limit = l.first + k * l.size := by rw [Nat.mul_comm k]; omega
  have hcount : (l.limit - l.first) / l.size = k := by rw [hk, Nat.mul_div_cancel_left _ hpos]
  -- The run of the first `n` partitions ends `n` sizes after the first block.
  have hrun : ∀ n, Run l.first (l.first + n * l.size) ((List.range n).map fun i =>
      (⟨l.size, l.first + i * l.size, l.first + i * l.size + l.size⟩ : Partition)) := by
    intro n
    induction n with
    | zero =>
        rw [Nat.zero_mul, Nat.add_zero]
        exact Run.nil _
    | succ n ih =>
        rw [List.range_succ, List.map_append, Nat.succ_mul, ← Nat.add_assoc]
        exact ih.append (Run.cons rfl (by simp [hpos]) (Run.nil _))
  rw [Level.partitions, hcount, hend]
  exact hrun k

/-- A level that ends before it starts has no partitions. -/
theorem Level.partitions_of_le {l : Level} (h : l.limit ≤ l.first) : l.partitions = [] := by
  rw [Level.partitions, Nat.sub_eq_zero_of_le h, Nat.zero_div]
  rfl

/-- The products and sums that are computed for a level are words, and its size is no zero. -/
structure Level.FitsWords (l : Level) : Prop where
  size_pos : 0 < l.size
  first_lt : l.first < Word.count 64
  limit_lt : l.limit < Word.count 64
  stop_lt : ∀ p ∈ l.partitions, p.start + l.size = p.stop ∧ p.stop < Word.count 64

/-- Nothing that is computed for a level is greater than its limit, but for its first block. -/
theorem Level.fitsWords {l : Level} {latest : Nat} (hlatest : latest < Word.count 64)
    (hpos : 0 < l.size) (hfirst : l.size ∣ l.first) (hlimit : l.limit = roundDown latest l.size)
    (hlt : l.first < Word.count 64) : l.FitsWords := by
  have hle : l.limit ≤ latest := hlimit ▸ roundDown_le latest l.size
  refine ⟨hpos, hlt, by omega, fun p hp => ?_⟩
  have hsum : p.start + l.size = p.stop := by
    obtain ⟨i, -, rfl⟩ := List.mem_map.mp hp
    rfl
  refine ⟨hsum, ?_⟩
  by_cases hempty : l.first ≤ l.limit
  · have hrun := Level.run hpos hfirst (hlimit ▸ dvd_roundDown latest l.size) hempty
    have := (hrun.bounds hp).2.2
    omega
  · rw [Level.partitions_of_le (by omega)] at hp
    cases hp

/-! ### The run of all levels -/

/-- How far some sizes take a run that has come up to a block. -/
def reach (latest lower : Nat) (sizes : List Nat) : Nat :=
  (sizes.getLast?.map (roundDown latest)).getD lower

/-- The first of some sizes takes a run to its own limit, and the others take it on from there. -/
theorem reach_cons (latest lower s : Nat) (rest : List Nat) :
    reach latest lower (s :: rest) = reach latest (roundDown latest s) rest := by
  cases rest with
  | nil => rfl
  | cons t rest =>
      rw [reach, reach, List.getLast?_cons_cons, List.getLast?_eq_some_getLast (List.cons_ne_nil t rest)]
      rfl

/-- The first partition of a size that has room covers the block that it was asked for. -/
theorem Level.covers_of_head? {latest lower s : Nat} (hpos : 0 < s)
    (hroom : roundDown lower s < roundDown latest s) (more : List Partition) :
    ∀ p ∈ (Level.partitions ⟨s, roundDown lower s, roundDown latest s⟩ ++ more).head?,
      p.Covers lower := by
  intro p hp
  have hone : s ≤ roundDown latest s - roundDown lower s :=
    Nat.le_of_dvd (by omega) (Nat.dvd_sub (dvd_roundDown latest s) (dvd_roundDown lower s))
  obtain ⟨k, hk⟩ := Nat.exists_eq_succ_of_ne_zero (Nat.ne_of_gt (Nat.div_pos hone hpos))
  obtain rfl : (⟨s, roundDown lower s, roundDown lower s + s⟩ : Partition) = p := by
    rw [Level.partitions, hk, List.range_succ_eq_map] at hp
    simpa using hp
  exact ⟨roundDown_le lower s, lt_roundDown_add lower hpos⟩

/--
**Smaller sizes resume where a run ends.**  The run ends at a multiple of all of them, so
rounding up does nothing, and a size that has no room leaves the run as it is.
-/
theorem run_of_resumed {latest : Nat} (hlatest : latest < Word.count 64) :
    ∀ {sizes : List Nat} {lower : Nat}, Nested sizes → (∀ s ∈ sizes, s ∣ lower) →
      lower ≤ latest →
      Run lower (reach latest lower sizes)
          ((levelsFrom latest lower true sizes).flatMap Level.partitions) ∧
        ∀ l ∈ levelsFrom latest lower true sizes, l.FitsWords := by
  intro sizes
  induction sizes with
  | nil => intro lower _ _ _; exact ⟨Run.nil lower, by simp [levelsFrom]⟩
  | cons s rest ih =>
      intro lower hnested hdvd hle
      have hpos : 0 < s := hnested.positive s (by simp)
      have hsl : s ∣ lower := hdvd s (by simp)
      have hlower : lower ≤ roundDown latest s := (le_roundDown_iff hpos hsl).mpr hle
      have hrest : ∀ t ∈ rest, t ∣ roundDown latest s := fun t ht =>
        Nat.dvd_trans ((List.pairwise_cons.mp hnested.divides).1 t ht) (dvd_roundDown latest s)
      -- Whether the size has room or not, the next one goes on from its limit.
      have hstep : levelsFrom latest lower true (s :: rest) =
          ⟨s, lower, roundDown latest s⟩ :: levelsFrom latest (roundDown latest s) true rest := by
        rw [levelsFrom]
        simp only [if_true, roundUp_of_dvd hpos hsl]
        by_cases hroom : lower < roundDown latest s
        · rw [if_pos hroom]
        · rw [if_neg hroom, show lower = roundDown latest s by omega]
      obtain ⟨hrun, hfits⟩ := ih hnested.tail hrest (roundDown_le latest s)
      rw [hstep, reach_cons, List.flatMap_cons]
      refine ⟨(Level.run (l := ⟨s, lower, roundDown latest s⟩) hpos hsl
        (dvd_roundDown latest s) hlower).append hrun, fun l hl => ?_⟩
      rcases List.mem_cons.mp hl with rfl | hl
      · exact Level.fitsWords hlatest hpos hsl rfl (Nat.lt_of_le_of_lt hle hlatest)
      · exact hfits l hl

/--
**The first size with room starts the run.**  It starts at the block rounded down, so its
first partition covers the block; if no size has room, there is no partition at all.
-/
theorem run_of_fresh {latest lower : Nat} (hlatest : latest < Word.count 64)
    (hlower : lower < Word.count 64) : ∀ {sizes : List Nat}, Nested sizes →
      (((levelsFrom latest lower false sizes).flatMap Level.partitions = [] ∧
          ∀ s ∈ sizes, roundDown latest s ≤ lower) ∨
        ∃ start, start ≤ lower ∧ lower < reach latest lower sizes ∧
          Run start (reach latest lower sizes)
            ((levelsFrom latest lower false sizes).flatMap Level.partitions) ∧
          ∀ p ∈ ((levelsFrom latest lower false sizes).flatMap Level.partitions).head?,
            p.Covers lower) ∧
      ∀ l ∈ levelsFrom latest lower false sizes, l.FitsWords := by
  intro sizes
  induction sizes with
  | nil => intro _; exact ⟨Or.inl ⟨rfl, by simp⟩, by simp [levelsFrom]⟩
  | cons s rest ih =>
      intro hnested
      have hpos : 0 < s := hnested.positive s (by simp)
      have hfits : Level.FitsWords ⟨s, roundDown lower s, roundDown latest s⟩ :=
        Level.fitsWords hlatest hpos (dvd_roundDown lower s) rfl
          (Nat.lt_of_le_of_lt (roundDown_le lower s) hlower)
      rw [levelsFrom]
      simp only [Bool.false_eq_true, if_false]
      by_cases hroom : roundDown lower s < roundDown latest s
      · rw [if_pos hroom]
        have hrest : ∀ t ∈ rest, t ∣ roundDown latest s := fun t ht =>
          Nat.dvd_trans ((List.pairwise_cons.mp hnested.divides).1 t ht) (dvd_roundDown latest s)
        obtain ⟨hrun, hfitsRest⟩ :=
          run_of_resumed hlatest hnested.tail hrest (roundDown_le latest s)
        have hlevel := Level.run (l := ⟨s, roundDown lower s, roundDown latest s⟩) hpos
          (dvd_roundDown lower s) (dvd_roundDown latest s) (Nat.le_of_lt hroom)
        have hinside : lower < roundDown latest s := (roundDown_lt_roundDown_iff hpos).mp hroom
        rw [reach_cons, List.flatMap_cons]
        refine ⟨Or.inr ⟨roundDown lower s, roundDown_le lower s,
          Nat.lt_of_lt_of_le hinside hrun.le, hlevel.append hrun,
          Level.covers_of_head? hpos hroom _⟩, fun l hl => ?_⟩
        rcases List.mem_cons.mp hl with rfl | hl
        · exact hfits
        · exact hfitsRest l hl
      · rw [if_neg hroom]
        obtain ⟨hruns, hfitsRest⟩ := ih hnested.tail
        have hempty : Level.partitions ⟨s, roundDown lower s, roundDown latest s⟩ = [] :=
          Level.partitions_of_le (Nat.not_lt.mp hroom)
        have hnone : roundDown latest s ≤ lower := by
          by_contra hlt
          exact hroom ((roundDown_lt_roundDown_iff hpos).mpr (Nat.not_le.mp hlt))
        rw [List.flatMap_cons, hempty, List.nil_append]
        refine ⟨?_, fun l hl => ?_⟩
        · rcases hruns with ⟨hnil, hall⟩ | ⟨start, hstart, hlt, hrun, hhead⟩
          · refine Or.inl ⟨hnil, fun t ht => ?_⟩
            rcases List.mem_cons.mp ht with rfl | ht
            · exact hnone
            · exact hall t ht
          · -- If a later size has room, there are later sizes, and the last one decides.
            have hreach : reach latest lower (s :: rest) = reach latest lower rest := by
              cases rest with
              | nil => exact absurd hlt (Nat.lt_irrefl lower)
              | cons t rest => rw [reach_cons, reach_cons, reach_cons]
            exact Or.inr ⟨start, hstart, hreach ▸ hlt, hreach ▸ hrun, hhead⟩
        · rcases List.mem_cons.mp hl with rfl | hl
          · exact hfits
          · exact hfitsRest l hl

end Rewards.Partition
