/-
A proof belongs to one leaf.

Two leaves that verify with the same proof follow the same siblings up to the same root.
Nothing is known about the siblings: they may be nodes of no tree at all, and one of them
may be the very node that it is joined with.  As the lesser of two digests is joined first,
one leaf may stand on the left of a sibling where the other stands on the right.  None of
this matters to the argument, which goes down from the root: two digests that were joined
with the same sibling are the same if what was joined is (`parentBytes_inj`), or two
different strings have the same digest.
-/
import Rewards.Proofs.Payment.Verification

namespace Rewards.PaymentTree

variable (digest : List UInt8 → Digest)

/-- Digests that have the same parent with a sibling are the same, or there is a collision. -/
theorem eq_or_collision_of_parent {a b sibling : Digest}
    (h : parent digest a sibling = parent digest b sibling) :
    a = b ∨ Collision digest [parentBytes a sibling, parentBytes b sibling] := by
  have hsame : parentBytes a sibling = parentBytes b sibling ∨
      Collision digest [parentBytes a sibling, parentBytes b sibling] :=
    Collision.eq_or (by simp) (by simp) h
  refine hsame.imp_left fun hbytes => ?_
  rcases parentBytes_inj hbytes with ⟨hab, -⟩ | ⟨has, hsb⟩
  · exact hab
  · exact has.trans hsb

/--
**The same siblings lead from one node only to a root.**  The induction is on the siblings
from the first one on: by assumption the two nodes above are the same, and then so are the
nodes themselves.
-/
theorem eq_or_collision_of_path : ∀ {path : List Digest} {a b : Digest},
    path.foldl (parent digest) a = path.foldl (parent digest) b →
      a = b ∨ Collision digest (pathStrings digest a path ++ pathStrings digest b path) := by
  intro path
  induction path with
  | nil => intro a b h; exact Or.inl h
  | cons sibling rest ih =>
      intro a b h
      rcases ih h with habove | hcollision
      · rcases eq_or_collision_of_parent digest habove with hab | hcollision
        · exact Or.inl hab
        · refine Or.inr (hcollision.mono fun x hx => ?_)
          rcases List.mem_pair.mp hx with rfl | rfl
          · exact List.mem_append_left _ List.mem_cons_self
          · exact List.mem_append_right _ List.mem_cons_self
      · exact Or.inr (hcollision.append (List.subset_cons_self _ _) (List.subset_cons_self _ _))

/-- Leaves that verify with the same proof name the same digest, or there is a collision. -/
theorem same_leaf_or_collision {leaf other root : String} {proof : List String}
    (h : verify digest leaf proof root = true) (hother : verify digest other proof root = true) :
    (∃ node, Digest.ofHex? leaf = some node ∧ Digest.ofHex? other = some node) ∨
      Collision digest (verifyStrings digest leaf proof ++ verifyStrings digest other proof) := by
  obtain ⟨a, path, ha, hpath, htop⟩ := (verify_eq_true_iff digest).mp h
  obtain ⟨b, samePath, hb, hsame, hsameTop⟩ := (verify_eq_true_iff digest).mp hother
  obtain rfl : path = samePath := Option.some.inj (hpath.symm.trans hsame)
  rw [verifyStrings_of_path digest ha hpath, verifyStrings_of_path digest hb hpath]
  have hreach : path.foldl (parent digest) a = path.foldl (parent digest) b :=
    Digest.hex_injective (htop.trans hsameTop.symm)
  refine (eq_or_collision_of_path digest hreach).imp_left fun hab => ?_
  exact ⟨a, ha, hab ▸ hb⟩

/--
**A proof belongs to one leaf.**  Whatever the proof and the root are, the leaves that
verify with them name the same digest, or two different strings with the same digest are
among those that are hashed to check the two.  So of what is handed off, the proof of one
row does not verify the leaf of another row unless the two rows have the same leaf.
-/
theorem proof_belongs_to_one_leaf :
    (∀ (proof : List String) (root leaf other : String),
      verify digest leaf proof root = true → verify digest other proof root = true →
        (∃ node, Digest.ofHex? leaf = some node ∧ Digest.ofHex? other = some node) ∨
          Collision digest
            (verifyStrings digest leaf proof ++ verifyStrings digest other proof)) ∧
    (∀ payments handedOff, handoff digest payments = .ok handedOff →
      ∀ row ∈ handedOff.rows, ∀ other ∈ handedOff.rows,
        verify digest other.leaf row.proof handedOff.root = true →
          row.leaf = other.leaf ∨
            Collision digest (verifyStrings digest row.leaf row.proof ++
              verifyStrings digest other.leaf row.proof)) := by
  refine ⟨fun proof root leaf other h hother => same_leaf_or_collision digest h hother,
    fun payments handedOff hhandoff row hrow other hother hverify => ?_⟩
  have haccounts := accounts_of_finite digest (finite_of_handoff digest hhandoff)
  rw [← eq_of_handoff digest hhandoff] at haccounts
  have hown := haccounts.verified row hrow
  refine (same_leaf_or_collision digest hown hverify).imp_left fun ⟨node, hleaf, hotherLeaf⟩ => ?_
  obtain ⟨a, -, ha⟩ := haccounts.leaf_eq row hrow
  obtain ⟨b, -, hb⟩ := haccounts.leaf_eq other hother
  rw [ha, Digest.ofHex?_hex] at hleaf
  rw [hb, Digest.ofHex?_hex] at hotherLeaf
  rw [ha, hb, Option.some.inj hleaf, Option.some.inj hotherLeaf]

/--
A leaf verifies in either case with a proof in which it is its own sibling, and a payment
that is made three times with the proof of any of its rows.
-/
theorem proof_belongs_to_one_leaf_spelled :
    let node : Digest := ⟨List.replicate 32 0xab, rfl⟩
    let capitals := String.ofList (node.hex.toList.map Char.toUpper)
    let root := (parent sha256 node node).hex
    (verify sha256 node.hex [capitals] root = true ∧ verify sha256 capitals [capitals] root = true ∧
      ((∃ d, Digest.ofHex? node.hex = some d ∧ Digest.ofHex? capitals = some d) ∨
        Collision sha256 (verifyStrings sha256 node.hex [capitals] ++
          verifyStrings sha256 capitals [capitals]))) ∧
    ∃ handedOff, handoff sha256 (List.replicate 3 (unitPayment "0xa")) = .ok handedOff ∧
      handedOff.rows.length = 3 ∧ ∀ row ∈ handedOff.rows, ∀ other ∈ handedOff.rows,
        verify sha256 other.leaf row.proof handedOff.root = true ∧
          (row.leaf = other.leaf ∨ Collision sha256 (verifyStrings sha256 row.leaf row.proof ++
            verifyStrings sha256 other.leaf row.proof)) := by
  intro node capitals root
  have hcapitals : Digest.ofHex? capitals = some node := by decide +kernel
  have hpath : [capitals].mapM Digest.ofHex? = some [node] := by
    rw [List.mapM_cons, hcapitals]
    rfl
  have hroot : ([node].foldl (parent sha256) node).hex =
      String.ofList (root.toList.map Char.toLower) := (Digest.lower_hex _).symm
  have hlower := (verify_eq_true_iff sha256).mpr
    ⟨node, [node], Digest.ofHex?_hex node, hpath, hroot⟩
  have hupper := (verify_eq_true_iff sha256).mpr ⟨node, [node], hcapitals, hpath, hroot⟩
  obtain ⟨hleaves, hrows⟩ := proof_belongs_to_one_leaf sha256
  refine ⟨⟨hlower, hupper, hleaves _ _ _ _ hlower hupper⟩, ?_⟩
  have hfinite : ∀ p ∈ List.replicate 3 (unitPayment "0xa"), p.amount.isFinite = true := by
    intro p hp
    rw [List.eq_of_mem_replicate hp]
    show (1.0 : Float).isFinite = true
    decide
  have hhandoff := handoff_of_finite sha256 hfinite
  have haccounts := accounts_of_finite sha256 hfinite
  have hpayment : ∀ row ∈ rowsOf sha256 (List.replicate 3 (unitPayment "0xa")),
      row.payment = unitPayment "0xa" := fun row hrow =>
    List.eq_of_mem_replicate (haccounts.perm.mem_iff.mp (List.mem_map_of_mem hrow))
  refine ⟨_, hhandoff, haccounts.length_rows, fun row hrow other hother => ?_⟩
  obtain ⟨a, ha, hleaf⟩ := haccounts.leaf_eq row hrow
  obtain ⟨b, hb, hsame⟩ := haccounts.leaf_eq other hother
  rw [hpayment row hrow] at ha
  rw [hpayment other hother, ha] at hb
  obtain rfl : a = b := Except.ok.inj hb
  have hverify := haccounts.verified row hrow
  rw [hleaf, ← hsame] at hverify
  exact ⟨hverify, hrows _ _ hhandoff row hrow other hother hverify⟩

end Rewards.PaymentTree
