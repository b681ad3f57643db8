/-
The shape of a payment tree.

How many levels there are, how many nodes each has and which siblings a proof lists depends on the
number of leaves alone, not on the leaves.  Going up one level halves the number of nodes and
rounds up, because a node that is left over moves up as it is.  What carries the argument is that
rounding up at every level is the same as rounding up once at the end
(`ceilDiv_two_pow_succ`); so a level is known by dividing the number of leaves, and there is one
node exactly when the power of two has reached it.

A proof passes each level but the last and lists a sibling where there is one.  There is none
where the node is the last of an odd number, which may be the case at several levels.
-/
import Rewards.Proofs.Digest.Spelling
import Rewards.Proofs.Payment.Handoff

namespace Rewards.PaymentTree

variable (digest : List UInt8 → Digest)

/-! ### Going up again and again -/

/-- Half of a number that was divided and rounded up, rounded up, is the number divided once. -/
theorem ceilDiv_two_pow_succ (n k : Nat) : n ⌈/⌉ 2 ^ (k + 1) = (n ⌈/⌉ 2 ^ k + 1) / 2 := by
  have hpos : 0 < 2 ^ k := Nat.two_pow_pos k
  rw [Nat.ceilDiv_eq_add_pred_div, Nat.ceilDiv_eq_add_pred_div, ← Nat.add_div_right _ hpos,
    Nat.div_div_eq_div_mul, ← Nat.pow_succ]
  congr 1
  rw [Nat.pow_succ]
  omega

/-- **The number of nodes some levels up.** -/
theorem length_iterate_above (leaves : List Digest) (k : Nat) :
    ((above digest)^[k] leaves).length = leaves.length ⌈/⌉ 2 ^ k := by
  induction k with
  | zero => simp
  | succ k ih => rw [Function.iterate_succ_apply', length_above, ih, ceilDiv_two_pow_succ]

/-- One level up, one power of two less is needed to reach the number of nodes. -/
theorem clog_length_of_lt {level : List Digest} (h : 1 < level.length) :
    Nat.clog 2 level.length = Nat.clog 2 (above digest level).length + 1 := by
  rw [Nat.clog_of_two_le (by decide) h, length_above]
  rfl

/-- **The levels are the leaves and what is above them, again and again.** -/
theorem levels_eq_iterate : ∀ (n : Nat) {leaves : List Digest}, leaves.length = n →
    levels digest leaves =
      List.iterate (above digest) leaves (Nat.clog 2 leaves.length + 1) := by
  intro n
  induction n using Nat.strong_induction_on with
  | _ n ih =>
      intro leaves hn
      by_cases hlt : 1 < leaves.length
      · have hshorter : (above digest leaves).length < n := by rw [length_above]; omega
        rw [levels_of_lt digest hlt, ih _ hshorter rfl, clog_length_of_lt digest hlt]
        rfl
      · have hle : leaves.length ≤ 1 := Nat.not_lt.mp hlt
        rw [levels_of_le digest hle, Nat.clog_of_right_le_one hle]
        rfl

theorem length_levels (leaves : List Digest) :
    (levels digest leaves).length = Nat.clog 2 leaves.length + 1 := by
  rw [levels_eq_iterate digest _ rfl, List.length_iterate]

theorem levels_getElem? {leaves : List Digest} {k : Nat} (h : k ≤ Nat.clog 2 leaves.length) :
    (levels digest leaves)[k]? = some ((above digest)^[k] leaves) := by
  rw [levels_eq_iterate digest _ rfl, List.getElem?_iterate _ _ _ _ (Nat.lt_succ_of_le h)]

/-- The last level is the one whose power of two has reached the number of leaves. -/
theorem exists_top {leaves : List Digest} (hne : leaves ≠ []) :
    ∃ top, (levels digest leaves).getLast? = some [top] := by
  have hpos : 0 < leaves.length := List.length_pos_iff.mpr hne
  have hone : ((above digest)^[Nat.clog 2 leaves.length] leaves).length = 1 := by
    have hreached : leaves.length ≤ 2 ^ Nat.clog 2 leaves.length := Nat.le_pow_clog (by decide) _
    rw [length_iterate_above, Nat.ceilDiv_eq_add_pred_div]
    refine Nat.div_eq_of_lt_le ?_ ?_
    · omega
    · omega
  obtain ⟨top, htop⟩ := List.length_eq_one_iff.mp hone
  refine ⟨top, ?_⟩
  rw [List.getLast?_eq_getElem?, length_levels, Nat.add_sub_cancel,
    levels_getElem? digest (Nat.le_refl _), htop]

/-! ### The siblings on the way up -/

/-- The other index of a pair differs in the last binary digit. -/
theorem siblingIndex_eq_xor (i : Nat) : siblingIndex i = i ^^^ 1 := by
  unfold siblingIndex
  split
  next heven => rw [Nat.xor_one_of_even (Nat.even_iff.mpr heven)]
  next hodd => rw [Nat.xor_one_of_odd (Nat.odd_iff.mpr (Nat.mod_two_ne_zero.mp hodd))]

/-- The sibling at a level of the node that an index leads to there. -/
def siblingAt? (levels : List (List Digest)) (i k : Nat) : Option Digest :=
  levels[k]?.bind fun level => level[(i / 2 ^ k) ^^^ 1]?

/-- Above the first level, a node's siblings are those of the node above it. -/
theorem siblingAt?_cons_succ (level : List Digest) (rest : List (List Digest)) (i k : Nat) :
    siblingAt? (level :: rest) i (k + 1) = siblingAt? rest (i / 2) k := by
  rw [siblingAt?, siblingAt?, List.getElem?_cons_succ, Nat.div_div_eq_div_mul, Nat.pow_succ']

/-- **A proof lists the siblings of all levels but the last.** -/
theorem siblings_eq_filterMap : ∀ (rest : List (List Digest)) (level : List Digest) (i : Nat),
    siblings (level :: rest) i =
      (List.range rest.length).filterMap (siblingAt? (level :: rest) i) := by
  intro rest
  induction rest with
  | nil => intro level i; rfl
  | cons next rest ih =>
      intro level i
      have hfirst : siblingAt? (level :: next :: rest) i 0 = level[siblingIndex i]? := by
        rw [siblingAt?, siblingIndex_eq_xor, Nat.pow_zero, Nat.div_one]
        rfl
      rw [siblings, ih, List.length_cons, List.range_succ_eq_map, List.filterMap_cons,
        List.filterMap_map, hfirst]
      have hlater : siblingAt? (level :: next :: rest) i ∘ Nat.succ =
          siblingAt? (next :: rest) (i / 2) := funext (siblingAt?_cons_succ level _ i)
      rw [hlater]
      cases level[siblingIndex i]? with
      | none => rfl
      | some node => rfl

theorem siblings_levels (leaves : List Digest) (i : Nat) :
    siblings (levels digest leaves) i =
      (List.range (Nat.clog 2 leaves.length)).filterMap (siblingAt? (levels digest leaves) i) := by
  have hlength := length_levels digest leaves
  obtain ⟨rest, hrest⟩ := levels_eq_cons digest leaves
  rw [hrest, List.length_cons] at hlength
  rw [hrest, siblings_eq_filterMap, Nat.succ.inj hlength]

/-- A level has a sibling for an index if it has a node at the other index of the pair. -/
theorem isSome_siblingAt?_iff {leaves : List Digest} {i k : Nat}
    (hk : k < Nat.clog 2 leaves.length) :
    (siblingAt? (levels digest leaves) i k).isSome = true ↔
      (i / 2 ^ k) ^^^ 1 < leaves.length ⌈/⌉ 2 ^ k := by
  rw [siblingAt?, levels_getElem? digest (Nat.le_of_lt hk), Option.bind_some,
    isSome_getElem?, length_iterate_above]

/-- What a partial function is at the members of a list where it is defined. -/
theorem forall₂_filterMap {α β : Type} (f : α → Option β) (l : List α) :
    List.Forall₂ (fun a b => f a = some b) (l.filter fun a => (f a).isSome) (l.filterMap f) := by
  induction l with
  | nil => exact .nil
  | cons a rest ih =>
      cases ha : f a with
      | none => simpa [ha] using ih
      | some b => simpa [ha] using ih

/-! ### The shape of a tree -/

/-- The levels above some leaves, and the proofs that are read off them, have the shape that the
number of the leaves gives them. -/
structure HasShape (leaves : List Digest) : Prop where
  /-- Going up ends, and each level is the one above the level before it. -/
  levels_eq : levels digest leaves =
    List.iterate (above digest) leaves (Nat.clog 2 leaves.length + 1)
  /-- There is a level for each power of two up to the first that reaches the number of leaves. -/
  length_levels : (levels digest leaves).length = Nat.clog 2 leaves.length + 1
  /-- A level has a node for so many leaves, and one for those that are left over. -/
  length_level : ∀ k level, (levels digest leaves)[k]? = some level →
    level.length = leaves.length ⌈/⌉ 2 ^ k
  /-- The last level is the root alone. -/
  last : ∃ top, (levels digest leaves).getLast? = some [top]
  /-- A proof has one element for each level but the last that has a sibling, and no other. -/
  proof_elements : ∀ i < leaves.length,
    List.Forall₂
      (fun k text => ∃ level node, (levels digest leaves)[k]? = some level ∧
        level[(i / 2 ^ k) ^^^ 1]? = some node ∧ text = node.hex)
      ((List.range (Nat.clog 2 leaves.length)).filter fun k =>
        (i / 2 ^ k) ^^^ 1 < leaves.length ⌈/⌉ 2 ^ k)
      ((siblings (levels digest leaves) i).map Digest.hex)
  /-- An element of a proof is a digest in lower case. -/
  proof_digits : ∀ i < leaves.length, ∀ text ∈ (siblings (levels digest leaves) i).map Digest.hex,
    IsLowerDigestText text
  /-- No proof is longer than there are levels below the root. -/
  length_proof_le : ∀ i < leaves.length,
    ((siblings (levels digest leaves) i).map Digest.hex).length ≤ Nat.clog 2 leaves.length

/-- Each level but the last gives a proof one element, if it has a sibling. -/
theorem forall₂_siblings (leaves : List Digest) (i : Nat) :
    List.Forall₂ (fun k node => siblingAt? (levels digest leaves) i k = some node)
      ((List.range (Nat.clog 2 leaves.length)).filter fun k =>
        (i / 2 ^ k) ^^^ 1 < leaves.length ⌈/⌉ 2 ^ k)
      (siblings (levels digest leaves) i) := by
  have hlevels : (List.range (Nat.clog 2 leaves.length)).filter
        (fun k => (i / 2 ^ k) ^^^ 1 < leaves.length ⌈/⌉ 2 ^ k) =
      (List.range (Nat.clog 2 leaves.length)).filter
        fun k => (siblingAt? (levels digest leaves) i k).isSome := by
    refine List.filter_congr fun k hk => ?_
    rw [Bool.eq_iff_iff, decide_eq_true_eq,
      isSome_siblingAt?_iff digest (List.mem_range.mp hk)]
  rw [hlevels, siblings_levels]
  exact forall₂_filterMap _ _

/--
**The shape of a tree.**  Going up from at least one leaf ends, after as many steps as it takes to
double one until it reaches the number of leaves, and at a level of one node; every level has the
number of leaves divided by its power of two, rounded up.  A proof has exactly one element for each
level below the last at which the node has a sibling, each of them a digest written in lower case.
-/
theorem hasShape_levels {leaves : List Digest} (hne : leaves ≠ []) : HasShape digest leaves where
  levels_eq := levels_eq_iterate digest _ rfl
  length_levels := length_levels digest leaves
  length_level := by
    intro k level hlevel
    have hk : k < (levels digest leaves).length := (List.getElem?_eq_some_iff.mp hlevel).1
    rw [length_levels] at hk
    rw [levels_getElem? digest (Nat.le_of_lt_succ hk)] at hlevel
    rw [← Option.some.inj hlevel, length_iterate_above]
  last := exists_top digest hne
  proof_elements := by
    intro i _
    rw [List.forall₂_map_right_iff]
    refine (forall₂_siblings digest leaves i).imp fun k node hnode => ?_
    obtain ⟨level, hlevel, hnode⟩ := Option.bind_eq_some_iff.mp hnode
    exact ⟨level, node, hlevel, hnode, rfl⟩
  proof_digits := by
    intro i _ text htext
    obtain ⟨node, -, rfl⟩ := List.mem_map.mp htext
    exact node.isLowerDigestText_hex
  length_proof_le := by
    intro i _
    rw [List.length_map, ← (forall₂_siblings digest leaves i).length_eq]
    exact (List.length_filter_le _ _).trans (Nat.le_of_eq List.length_range)

/-- Above five leaves there are three levels; the last leaf moves up twice and has one sibling. -/
theorem hasShape_levels_five :
    let leaves : List Digest := List.replicate 5 ⟨List.replicate 32 0xab, rfl⟩
    leaves ≠ [] ∧ HasShape sha256 leaves ∧ (levels sha256 leaves).length = 4 ∧
      ((siblings (levels sha256 leaves) 0).map Digest.hex).length = 3 ∧
      ((siblings (levels sha256 leaves) 4).map Digest.hex).length = 1 := by
  intro leaves
  have hne : leaves ≠ [] := by decide
  have hshape := hasShape_levels sha256 hne
  refine ⟨hne, hshape, hshape.length_levels.trans (by decide +kernel), ?_, ?_⟩
  · exact (hshape.proof_elements 0 (by decide)).length_eq.symm.trans (by decide +kernel)
  · exact (hshape.proof_elements 4 (by decide)).length_eq.symm.trans (by decide +kernel)

end Rewards.PaymentTree
