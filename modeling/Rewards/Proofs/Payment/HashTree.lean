/-
The levels of a payment tree are a binary tree.

The tree is built level by level: the nodes of a level are joined in pairs, and one
that is left over moves up as it is.  Every argument about what a root stands for goes
down from the root instead, so the levels are read here as one binary tree, whose root
digest is the root of the levels and whose leaves, from left to right, are the leaves
that the levels start from.  A node that moves up is simply the same subtree one level
higher, so it leaves no trace in the tree at all.

What a tree hashes is the bytes of its leaves and the joined bytes of each of its
inner nodes, and these are among the strings that the levels hash.
-/
import Rewards.Payment.Tree
import Rewards.Proofs.Digest

namespace Rewards

namespace PaymentTree

/-! ### Two children joined -/

/-- **The joined bytes of two nodes tell which two they were.** -/
theorem parentBytes_inj {a b c d : Digest} (h : parentBytes a b = parentBytes c d) :
    (a = c ∧ b = d) ∨ (a = d ∧ b = c) := by
  have hlen : (a.least b).bytes.length = (c.least d).bytes.length := by
    rw [Digest.length_eq, Digest.length_eq]
  obtain ⟨hleast, hgreatest⟩ := List.append_inj (List.cons.inj h).2 hlen
  have hl : a.least b = c.least d := Digest.ext hleast
  have hg : a.greatest b = c.greatest d := Digest.ext hgreatest
  rcases Digest.least_greatest a b with ⟨h1, h2⟩ | ⟨h1, h2⟩ <;>
    rcases Digest.least_greatest c d with ⟨h3, h4⟩ | ⟨h3, h4⟩ <;>
      rw [h1, h3] at hl <;> rw [h2, h4] at hg
  · exact Or.inl ⟨hl, hg⟩
  · exact Or.inr ⟨hl, hg⟩
  · exact Or.inr ⟨hg, hl⟩
  · exact Or.inl ⟨hg, hl⟩

theorem parentBytes_comm (a b : Digest) : parentBytes a b = parentBytes b a := by
  unfold parentBytes
  rw [Digest.least_comm, Digest.greatest_comm]

theorem parent_comm (digest : List UInt8 → Digest) (a b : Digest) :
    parent digest a b = parent digest b a := by
  unfold parent
  rw [parentBytes_comm]

/-- The bytes of a leaf are not those of two children. -/
theorem leafMark_cons_ne_parentBytes (text : List UInt8) (a b : Digest) :
    leafMark :: text ≠ parentBytes a b := by
  intro h
  exact absurd (List.cons.inj h).1 (by decide)

/-! ### Levels -/

variable (digest : List UInt8 → Digest)

/-- The strings that are hashed to join the nodes of a level. -/
def joinStrings : List Digest → List (List UInt8)
  | a :: b :: rest => parentBytes a b :: joinStrings rest
  | _ => []

theorem levels_of_le {level : List Digest} (h : level.length ≤ 1) :
    levels digest level = [level] := by
  rw [levels, if_pos h]

theorem levels_of_lt {level : List Digest} (h : 1 < level.length) :
    levels digest level = level :: levels digest (above digest level) := by
  rw [levels, if_neg (by omega)]

/-- The levels of a level start with it. -/
theorem levels_eq_cons (level : List Digest) : ∃ rest, levels digest level = level :: rest := by
  by_cases h : level.length ≤ 1
  · exact ⟨[], levels_of_le digest h⟩
  · exact ⟨_, levels_of_lt digest (by omega)⟩

/-- The root is that of the levels from the second one on, if there are two. -/
theorem root_levels_of_lt {level : List Digest} (h : 1 < level.length) :
    root digest (levels digest level) = root digest (levels digest (above digest level)) := by
  obtain ⟨rest, hrest⟩ := levels_eq_cons digest (above digest level)
  rw [levels_of_lt digest h, hrest]
  unfold root
  rw [List.getLast?_cons_cons]

end PaymentTree

open PaymentTree

/-- A payment tree from its root down; a leaf holds the bytes that are hashed for it. -/
inductive HashTree where
  | leaf (bytes : List UInt8)
  | node (left right : HashTree)

namespace HashTree

variable (digest : List UInt8 → Digest)

/-- The digest at the root. -/
def top : HashTree → Digest
  | leaf bytes => digest bytes
  | node left right => parent digest left.top right.top

/-- The bytes of the leaves from left to right. -/
def leaves : HashTree → List (List UInt8)
  | leaf bytes => [bytes]
  | node left right => left.leaves ++ right.leaves

/-- The strings that are hashed on the way to the root. -/
def hashed : HashTree → List (List UInt8)
  | leaf bytes => [bytes]
  | node left right =>
    parentBytes (left.top digest) (right.top digest) :: (left.hashed ++ right.hashed)

/-! ### The trees of the level above -/

/-- Trees joined in pairs, the way the nodes of a level are. -/
def joined : List HashTree → List HashTree
  | a :: b :: rest => node a b :: joined rest
  | rest => rest

theorem map_top_joined (ts : List HashTree) :
    (joined ts).map (top digest) = above digest (ts.map (top digest)) := by
  fun_induction joined ts with
  | case1 a b rest ih => simp only [List.map_cons, above, ih, top]
  | case2 rest h =>
      rcases rest with _ | ⟨a, _ | ⟨b, rest⟩⟩
      · rfl
      · rfl
      · exact absurd rfl (h a b rest)

/-- Joining keeps the leaves and their order. -/
theorem flatMap_leaves_joined (ts : List HashTree) :
    (joined ts).flatMap leaves = ts.flatMap leaves := by
  fun_induction joined ts with
  | case1 a b rest ih => simp [leaves, ih]
  | case2 rest h => rfl

/-- Joining hashes the joined bytes of the pairs and nothing else. -/
theorem hashed_joined_subset (ts : List HashTree) :
    (joined ts).flatMap (hashed digest) ⊆
      joinStrings (ts.map (top digest)) ++ ts.flatMap (hashed digest) := by
  fun_induction joined ts with
  | case1 a b rest ih =>
      intro x hx
      simp only [List.flatMap_cons, hashed, List.cons_append, List.mem_cons, List.mem_append] at hx
      simp only [List.map_cons, joinStrings, List.flatMap_cons, List.cons_append, List.mem_cons,
        List.mem_append]
      rcases hx with rfl | (ha | hb) | hr
      · exact Or.inl rfl
      · exact Or.inr (Or.inr (Or.inl ha))
      · exact Or.inr (Or.inr (Or.inr (Or.inl hb)))
      · rcases List.mem_append.mp (ih hr) with hj | hr
        · exact Or.inr (Or.inl hj)
        · exact Or.inr (Or.inr (Or.inr (Or.inr hr)))
  | case2 rest h => exact fun x hx => List.mem_append_right _ hx

/-- Fewer trees are left when two or more are joined, and never none of some. -/
theorem length_joined (ts : List HashTree) : (joined ts).length = (ts.length + 1) / 2 := by
  have h := congrArg List.length (map_top_joined sha256 ts)
  simpa [length_above] using h

/-! ### The tree of all levels -/

/--
**The levels from some trees on are one tree.**  The induction is on the number of
trees: joining them goes one level up, and the levels from there on are a tree already.
-/
theorem exists_of_levels : ∀ (n : Nat) (ts : List HashTree), ts.length = n → ts ≠ [] →
    ∃ t : HashTree, root digest (levels digest (ts.map (top digest))) = t.top digest ∧
      t.leaves = ts.flatMap leaves ∧
      t.hashed digest ⊆
        (levels digest (ts.map (top digest))).flatMap joinStrings ++ ts.flatMap (hashed digest) := by
  intro n
  induction n using Nat.strong_induction_on with
  | _ n ih =>
      intro ts hn hne
      by_cases hlt : 1 < ts.length
      · have hlen : (joined ts).length < n := by rw [length_joined]; omega
        have hjne : joined ts ≠ [] := by
          intro hnil
          have := length_joined ts
          rw [hnil, List.length_nil] at this
          omega
        obtain ⟨t, hroot, hleaves, hhashed⟩ := ih _ hlen (joined ts) rfl hjne
        have hmap : 1 < (ts.map (top digest)).length := by simpa using hlt
        refine ⟨t, ?_, ?_, ?_⟩
        · rw [root_levels_of_lt digest hmap, ← map_top_joined, hroot]
        · rw [hleaves, flatMap_leaves_joined]
        · rw [levels_of_lt digest hmap, ← map_top_joined, List.flatMap_cons]
          intro x hx
          rcases List.mem_append.mp (hhashed hx) with hl | hj
          · exact List.mem_append_left _ (List.mem_append_right _ hl)
          · rcases List.mem_append.mp (hashed_joined_subset digest ts hj) with hp | ht
            · exact List.mem_append_left _ (List.mem_append_left _ hp)
            · exact List.mem_append_right _ ht
      · have hpos : 0 < ts.length := List.length_pos_iff.mpr hne
        obtain ⟨t, rfl⟩ := List.length_eq_one_iff.mp (show ts.length = 1 by omega)
        refine ⟨t, ?_, by simp, ?_⟩
        · rw [levels_of_le digest (by simp)]
          rfl
        · intro x hx
          exact List.mem_append_right _ (by simpa using hx)

end HashTree

end Rewards
