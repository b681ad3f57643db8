/-
A root stands for one list of payments, up to its order.

Two handoffs may be of any two sizes, so the trees behind their roots may have any two
shapes, and neither the number of leaves nor the side on which a node stands is hashed.
The argument therefore walks down both trees at once: where the digests of two trees
are the same, both are leaves and hold the same bytes, or both are nodes and their
children agree in pairs, maybe crosswise, or two different strings have one digest.
Crossed pairs only change the order of the leaves.  A leaf against a node and no payments
against some are strings that start differently, so they are collisions already.
-/
import Rewards.Proofs.Payment.Verification

namespace Rewards

open PaymentTree

namespace HashTree

variable (digest : List UInt8 → Digest)

/-- All leaves of a tree are the bytes of payments. -/
def Marked (t : HashTree) : Prop :=
  ∀ bytes ∈ t.leaves, ∃ text, bytes = leafMark :: text

theorem Marked.left {l r : HashTree} (h : (node l r).Marked) : l.Marked :=
  fun bytes hb => h bytes (List.mem_append_left _ hb)

theorem Marked.right {l r : HashTree} (h : (node l r).Marked) : r.Marked :=
  fun bytes hb => h bytes (List.mem_append_right _ hb)

theorem hashed_left_subset (l r : HashTree) : l.hashed digest ⊆ (node l r).hashed digest :=
  fun _ hx => List.mem_cons_of_mem _ (List.mem_append_left _ hx)

theorem hashed_right_subset (l r : HashTree) : r.hashed digest ⊆ (node l r).hashed digest :=
  fun _ hx => List.mem_cons_of_mem _ (List.mem_append_right _ hx)

/-- A leaf and a node with the same digest collide. -/
theorem collision_of_leaf_node {bytes : List UInt8} {l r : HashTree} (hmarked : (leaf bytes).Marked)
    (h : digest bytes = (node l r).top digest) :
    Collision digest ((leaf bytes).hashed digest ++ (node l r).hashed digest) := by
  obtain ⟨text, rfl⟩ := hmarked bytes (by simp [leaves])
  exact ⟨leafMark :: text, by simp [hashed], parentBytes (l.top digest) (r.top digest),
    by simp [hashed], leafMark_cons_ne_parentBytes _ _ _, h⟩

/-- Nodes with the same digest have the same two children, maybe crosswise, or collide. -/
theorem children_of_top_eq {a b c d : HashTree} (h : (node a b).top digest = (node c d).top digest) :
    (a.top digest = c.top digest ∧ b.top digest = d.top digest) ∨
      (a.top digest = d.top digest ∧ b.top digest = c.top digest) ∨
      Collision digest ((node a b).hashed digest ++ (node c d).hashed digest) := by
  have hsame : parentBytes (a.top digest) (b.top digest) =
      parentBytes (c.top digest) (d.top digest) ∨
      Collision digest ((node a b).hashed digest ++ (node c d).hashed digest) :=
    Collision.eq_or (by simp [hashed]) (by simp [hashed]) h
  rcases hsame with heq | hcollision
  · rcases parentBytes_inj heq with hstraight | hcrossed
    · exact Or.inl hstraight
    · exact Or.inr (Or.inl hcrossed)
  · exact Or.inr (Or.inr hcollision)

/--
**Trees with the same digest have the same leaves, each as often.**  The induction is on
the first tree, for every second one, because a pair of children may be crossed.
-/
theorem leaves_perm_of_top_eq : ∀ {t u : HashTree}, t.Marked → u.Marked →
    t.top digest = u.top digest →
      t.leaves.Perm u.leaves ∨ Collision digest (t.hashed digest ++ u.hashed digest) := by
  intro t
  induction t with
  | leaf bytes =>
      intro u ht hu h
      cases u with
      | leaf other =>
          have hsame : bytes = other ∨ Collision digest [bytes, other] :=
            Collision.eq_or (by simp) (by simp) h
          rcases hsame with rfl | hcollision
          · exact Or.inl (List.Perm.refl _)
          · exact Or.inr hcollision
      | node c d => exact Or.inr (collision_of_leaf_node digest ht h)
  | node a b iha ihb =>
      intro u ht hu h
      cases u with
      | leaf other => exact Or.inr (collision_of_leaf_node digest hu h.symm).swap
      | node c d =>
          have ha := hashed_left_subset digest a b
          have hb := hashed_right_subset digest a b
          have hc := hashed_left_subset digest c d
          have hd := hashed_right_subset digest c d
          rcases children_of_top_eq digest h with ⟨hac, hbd⟩ | ⟨had, hbc⟩ | hcollision
          · rcases iha ht.left hu.left hac with hleft | hcollision
            · rcases ihb ht.right hu.right hbd with hright | hcollision
              · exact Or.inl (hleft.append hright)
              · exact Or.inr (hcollision.append hb hd)
            · exact Or.inr (hcollision.append ha hc)
          · rcases iha ht.left hu.right had with hleft | hcollision
            · rcases ihb ht.right hu.left hbc with hright | hcollision
              · exact Or.inl ((hleft.append hright).trans List.perm_append_comm)
              · exact Or.inr (hcollision.append hb hc)
            · exact Or.inr (hcollision.append ha hd)
          · exact Or.inr hcollision

theorem collision_of_top_eq_nil {t : HashTree} (hmarked : t.Marked)
    (h : t.top digest = digest []) : Collision digest ([] :: t.hashed digest) := by
  cases t with
  | leaf bytes =>
      obtain ⟨text, rfl⟩ := hmarked bytes (by simp [leaves])
      exact ⟨leafMark :: text, by simp [hashed], [], by simp, List.cons_ne_nil _ _, h⟩
  | node l r =>
      exact ⟨parentBytes (l.top digest) (r.top digest), by simp [hashed], [], by simp,
        List.cons_ne_nil _ _, h⟩

end HashTree

namespace PaymentTree

variable (digest : List UInt8 → Digest)

/-- The root of some payments is that of a tree whose leaves are these payments. -/
theorem exists_marked_tree {payments : List PaymentRecord} (hne : payments ≠ []) :
    ∃ t : HashTree, root digest (levels digest (leavesOf digest payments)) = t.top digest ∧
      t.Marked ∧ t.leaves.Perm (payments.map leafString) ∧
      t.hashed digest ⊆ handoffStrings digest payments := by
  obtain ⟨t, hroot, hleaves, hhashed⟩ := exists_tree digest hne
  refine ⟨t, hroot, fun bytes hb => ?_, ?_, hhashed⟩
  · rw [hleaves] at hb
    obtain ⟨p, -, rfl⟩ := List.mem_map.mp hb
    exact ⟨_, rfl⟩
  · rw [hleaves]
    exact (inOrder_perm payments).map leafString

theorem root_nil : root digest (levels digest (leavesOf digest [])) = digest [] := by
  rw [show leavesOf digest [] = [] from by simp [leavesOf, inOrder], levels_of_le digest (by simp)]
  rfl

/-- Some payments with the root of no payments collide. -/
theorem collision_of_root_eq_nil {payments : List PaymentRecord} (hne : payments ≠ [])
    (h : root digest (levels digest (leavesOf digest payments)) = digest []) :
    Collision digest (handoffStrings digest [] ++ handoffStrings digest payments) := by
  obtain ⟨t, hroot, hmarked, -, hhashed⟩ := exists_marked_tree digest hne
  refine (HashTree.collision_of_top_eq_nil digest hmarked (hroot.symm.trans h)).mono fun x hx => ?_
  rcases List.mem_cons.mp hx with rfl | ht
  · exact List.mem_append_left _ (by simp [handoffStrings])
  · exact List.mem_append_right _ (hhashed ht)

/-- Payments that are hashed as the same strings have the same canonical texts. -/
theorem perm_canonical_of_perm_leafString {payments others : List PaymentRecord}
    (h : (payments.map leafString).Perm (others.map leafString)) :
    (payments.map fun p => p.toJson.canonical).Perm (others.map fun p => p.toJson.canonical) := by
  have hinjective : Function.Injective fun text => leafMark :: Identity.utf8 text :=
    fun s t hst => Identity.utf8_injective (List.cons.inj hst).2
  have hmap : ∀ l : List PaymentRecord, l.map leafString =
      (l.map fun p => p.toJson.canonical).map fun text => leafMark :: Identity.utf8 text := by
    intro l
    rw [List.map_map]
    rfl
  rw [hmap, hmap] at h
  exact (List.map_perm_map_iff hinjective).mp h

/--
**Handoffs with the same root hold the same payments.**  Whatever the two sizes are, the
canonical texts of the payments are the same, each as often, or two different strings with
the same digest are among those that were hashed for the two trees.
-/
theorem payments_perm_of_root_eq {payments others : List PaymentRecord}
    {handedOff otherHandedOff : Handoff} (hpayments : handoff digest payments = .ok handedOff)
    (hothers : handoff digest others = .ok otherHandedOff)
    (hroot : handedOff.root = otherHandedOff.root) :
    (payments.map fun p => p.toJson.canonical).Perm (others.map fun p => p.toJson.canonical) ∨
      Collision digest (handoffStrings digest payments ++ handoffStrings digest others) := by
  rw [eq_of_handoff digest hpayments, eq_of_handoff digest hothers] at hroot
  have htop := Digest.hex_injective hroot
  by_cases hp : payments = []
  · by_cases ho : others = []
    · subst hp ho
      exact Or.inl (List.Perm.refl _)
    · subst hp
      rw [root_nil] at htop
      exact Or.inr (collision_of_root_eq_nil digest ho htop.symm)
  · by_cases ho : others = []
    · subst ho
      rw [root_nil] at htop
      exact Or.inr (collision_of_root_eq_nil digest hp htop).swap
    · obtain ⟨t, ht, htmarked, htleaves, hthashed⟩ := exists_marked_tree digest hp
      obtain ⟨u, hu, humarked, huleaves, huhashed⟩ := exists_marked_tree digest ho
      rcases HashTree.leaves_perm_of_top_eq digest htmarked humarked
          (ht.symm.trans (htop.trans hu)) with hperm | hcollision
      · exact Or.inl (perm_canonical_of_perm_leafString
          ((htleaves.symm.trans hperm).trans huleaves))
      · exact Or.inr (hcollision.append hthashed huhashed)

/-- Payments handed off in another order have the same root and so are the same payments. -/
theorem payments_perm_of_root_eq_rotated :
    ∃ handedOff otherHandedOff,
      handoff sha256 (["0xc", "0xa", "0xb"].map unitPayment) = .ok handedOff ∧
      handoff sha256 (["0xa", "0xb", "0xc"].map unitPayment) = .ok otherHandedOff ∧
      handedOff.root = otherHandedOff.root ∧
      (((["0xc", "0xa", "0xb"].map unitPayment).map fun p => p.toJson.canonical).Perm
          ((["0xa", "0xb", "0xc"].map unitPayment).map fun p => p.toJson.canonical) ∨
        Collision sha256 (handoffStrings sha256 (["0xc", "0xa", "0xb"].map unitPayment) ++
          handoffStrings sha256 (["0xa", "0xb", "0xc"].map unitPayment))) := by
  have hfinite : ∀ payees : List String, ∀ p ∈ payees.map unitPayment,
      p.amount.isFinite = true := by
    intro payees p hp
    obtain ⟨payee, -, rfl⟩ := List.mem_map.mp hp
    show (1.0 : Float).isFinite = true
    decide
  have hca : (order (unitPayment "0xc") (unitPayment "0xa")).isLE = false := by decide +kernel
  have hcb : (order (unitPayment "0xc") (unitPayment "0xb")).isLE = false := by decide +kernel
  have hab : (order (unitPayment "0xa") (unitPayment "0xb")).isLE = true := by decide +kernel
  have hac : (order (unitPayment "0xa") (unitPayment "0xc")).isLE = true := by decide +kernel
  have hbc : (order (unitPayment "0xb") (unitPayment "0xc")).isLE = true := by decide +kernel
  have hordered : inOrder (["0xc", "0xa", "0xb"].map unitPayment) =
      inOrder (["0xa", "0xb", "0xc"].map unitPayment) := by
    simp [inOrder, List.mergeSort, List.MergeSort.Internal.splitInTwo, hca, hcb, hab, hac, hbc]
  have hfirst := handoff_of_finite sha256 (hfinite ["0xc", "0xa", "0xb"])
  have hsecond := handoff_of_finite sha256 (hfinite ["0xa", "0xb", "0xc"])
  have hleaves : leavesOf sha256 (["0xc", "0xa", "0xb"].map unitPayment) =
      leavesOf sha256 (["0xa", "0xb", "0xc"].map unitPayment) := by
    rw [leavesOf, leavesOf, hordered]
  have hroot := congrArg (fun leaves => (root sha256 (levels sha256 leaves)).hex) hleaves
  exact ⟨_, _, hfirst, hsecond, hroot, payments_perm_of_root_eq sha256 hfirst hsecond hroot⟩

end PaymentTree

end Rewards
