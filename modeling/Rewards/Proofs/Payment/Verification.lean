/-
A payment that verifies was handed off.

Whoever offers a proof chooses it: how long it is, and every sibling in it.  What a
proof has to hit is a root that comes from a tree, and from there the argument goes
down.  The last step of the proof joins two digests to the root, so these two are the
children of the root, or two different strings have its digest; which side the sibling
stood on does not matter, because both children are roots of trees again.  The proof
ends at a leaf of the tree, or it is too long and ends below one, or too short and ends
at an inner node.  The marks tell a leaf from an inner node, so in the latter two cases
there is a collision once more.

The induction is on the proof from its last step on, and what is assumed of the digest
is nothing: a collision is reported among the strings that are hashed here
(`handoffStrings`, `leafString`, `verifyStrings`).
-/
import Rewards.Proofs.Payment.Handoff

namespace Rewards

namespace PaymentTree

variable (digest : List UInt8 → Digest)

/-! ### What is hashed -/

/-- The strings that are hashed to hand payments off. -/
def handoffStrings (payments : List PaymentRecord) : List (List UInt8) :=
  (if payments = [] then [[]] else []) ++ payments.map leafString ++
    (levels digest (leavesOf digest payments)).flatMap joinStrings

/-- The strings that are hashed while a proof is followed from a node. -/
def climbStrings : Digest → List String → List (List UInt8)
  | _, [] => []
  | node, sibling :: rest =>
    match Digest.ofHex? sibling with
    | some sibling => parentBytes node sibling :: climbStrings (parent digest node sibling) rest
    | none => []

/-- The strings that are hashed to check a proof of a leaf. -/
def verifyStrings (leaf : String) (proof : List String) : List (List UInt8) :=
  match Digest.ofHex? leaf with
  | some node => climbStrings digest node proof
  | none => []

/-! ### Proofs as lists of digests -/

/-- The strings that are hashed to join a node with some siblings, one after the other. -/
def pathStrings : Digest → List Digest → List (List UInt8)
  | _, [] => []
  | node, sibling :: rest => parentBytes node sibling :: pathStrings (parent digest node sibling) rest

theorem pathStrings_concat (sibling : Digest) : ∀ (path : List Digest) (node : Digest),
    pathStrings digest node (path ++ [sibling]) =
      pathStrings digest node path ++ [parentBytes (path.foldl (parent digest) node) sibling] := by
  intro path
  induction path with
  | nil => intro node; rfl
  | cons s rest ih =>
      intro node
      simp only [List.cons_append, pathStrings, List.foldl_cons, ih]

/-- A proof can be followed exactly if each text in it names a digest. -/
theorem climb_eq : ∀ (proof : List String) (node : Digest),
    climb digest node proof =
      (proof.mapM Digest.ofHex?).map fun path => path.foldl (parent digest) node := by
  intro proof
  induction proof with
  | nil => intro node; rfl
  | cons text rest ih =>
      intro node
      rw [climb, List.mapM_cons]
      cases hread : Digest.ofHex? text with
      | none => rfl
      | some sibling =>
          show climb digest (parent digest node sibling) rest = _
          rw [ih]
          cases rest.mapM Digest.ofHex? <;> rfl

/-- What is hashed while a proof is followed depends on the digests in it only. -/
theorem climbStrings_of_path : ∀ {proof : List String} {path : List Digest} (node : Digest),
    proof.mapM Digest.ofHex? = some path →
      climbStrings digest node proof = pathStrings digest node path := by
  intro proof
  induction proof with
  | nil =>
      intro path node h
      cases h
      rfl
  | cons text rest ih =>
      intro path node h
      rw [List.mapM_cons] at h
      obtain ⟨sibling, hread, h⟩ := Option.bind_eq_some_iff.mp h
      obtain ⟨siblings, hrest, h⟩ := Option.bind_eq_some_iff.mp h
      cases h
      simp only [climbStrings, hread, pathStrings, ih _ hrest]

/--
**A proof verifies exactly if it can be read and leads from the leaf to the root**, which
may be written in either case.
-/
theorem verify_eq_true_iff {leaf root : String} {proof : List String} :
    verify digest leaf proof root = true ↔
      ∃ node path, Digest.ofHex? leaf = some node ∧ proof.mapM Digest.ofHex? = some path ∧
        (path.foldl (parent digest) node).hex = String.ofList (root.toList.map Char.toLower) := by
  unfold verify
  cases Digest.ofHex? leaf with
  | none => simp
  | some node =>
      rw [Option.bind_some, climb_eq]
      cases proof.mapM Digest.ofHex? with
      | none => simp
      | some path => simp

/-- What is hashed to check a proof that can be read. -/
theorem verifyStrings_of_path {leaf : String} {proof : List String} {node : Digest}
    {path : List Digest} (hleaf : Digest.ofHex? leaf = some node)
    (hpath : proof.mapM Digest.ofHex? = some path) :
    verifyStrings digest leaf proof = pathStrings digest node path := by
  unfold verifyStrings
  rw [hleaf]
  exact climbStrings_of_path digest node hpath

/-- A proof of a digest that verifies is a list of siblings that leads to the root. -/
theorem exists_path_of_verify {node top : Digest} {proof : List String}
    (h : verify digest node.hex proof top.hex = true) :
    ∃ path : List Digest, path.foldl (parent digest) node = top ∧
      verifyStrings digest node.hex proof = pathStrings digest node path := by
  obtain ⟨start, path, hstart, hpath, htop⟩ := (verify_eq_true_iff digest).mp h
  obtain rfl : node = start := Option.some.inj ((Digest.ofHex?_hex node).symm.trans hstart)
  rw [Digest.lower_hex] at htop
  exact ⟨path, Digest.hex_injective htop, verifyStrings_of_path digest hstart hpath⟩

end PaymentTree

open PaymentTree

/-! ### Down from the root of a tree -/

namespace HashTree

variable (digest : List UInt8 → Digest)

/-- What is joined to the root of a tree is the root of a half of it. -/
theorem half_of_parent {t : HashTree} {a b : Digest} (h : parent digest a b = t.top digest)
    (hmarked : ∀ bytes ∈ t.leaves, ∃ text, bytes = leafMark :: text) :
    (∃ half : HashTree, a = half.top digest ∧ half.leaves ⊆ t.leaves ∧
      half.hashed digest ⊆ t.hashed digest) ∨
    Collision digest (parentBytes a b :: t.hashed digest) := by
  cases t with
  | leaf bytes =>
      -- The proof is too long: two children have the digest of a leaf.
      obtain ⟨text, rfl⟩ := hmarked bytes (by simp [leaves])
      exact Or.inr ⟨parentBytes a b, by simp, leafMark :: text, by simp [hashed],
        (leafMark_cons_ne_parentBytes text a b).symm, h⟩
  | node left right =>
      have hsame : parentBytes a b = parentBytes (left.top digest) (right.top digest) ∨
          Collision digest (parentBytes a b :: (node left right).hashed digest) :=
        Collision.eq_or (by simp) (by simp [hashed]) h
      rcases hsame with heq | hcollision
      · refine Or.inl ?_
        rcases parentBytes_inj heq with ⟨ha, -⟩ | ⟨ha, -⟩
        · exact ⟨left, ha, List.subset_append_left _ _,
            fun x hx => List.mem_cons_of_mem _ (List.mem_append_left _ hx)⟩
        · exact ⟨right, ha, List.subset_append_right _ _,
            fun x hx => List.mem_cons_of_mem _ (List.mem_append_right _ hx)⟩
      · exact Or.inr hcollision

/--
**Whatever verifies against a tree is a leaf of it.**  The string that is claimed to be
a leaf carries the mark of one, and so do the leaves of the tree; the siblings are
arbitrary.
-/
theorem mem_leaves_of_path (text : List UInt8) : ∀ (path : List Digest) {t : HashTree},
    (∀ bytes ∈ t.leaves, ∃ text, bytes = leafMark :: text) →
    path.foldl (parent digest) (digest (leafMark :: text)) = t.top digest →
      leafMark :: text ∈ t.leaves ∨
        Collision digest (t.hashed digest ++
          (leafMark :: text) :: pathStrings digest (digest (leafMark :: text)) path) := by
  intro path
  induction path using List.reverseRecOn with
  | nil =>
      intro t hmarked h
      cases t with
      | leaf bytes =>
          have hsame : leafMark :: text = bytes ∨ Collision digest [bytes, leafMark :: text] :=
            Collision.eq_or (by simp) (by simp) h
          rcases hsame with heq | hcollision
          · exact Or.inl (by simp [leaves, heq])
          · exact Or.inr hcollision
      | node left right =>
          -- The proof is too short: a leaf has the digest of two children.
          exact Or.inr ⟨leafMark :: text, by simp,
            parentBytes (left.top digest) (right.top digest), by simp [hashed],
            leafMark_cons_ne_parentBytes _ _ _, h⟩
  | append_singleton path sibling ih =>
      intro t hmarked h
      rw [List.foldl_append] at h
      rw [pathStrings_concat]
      rcases half_of_parent digest h hmarked with ⟨half, hhalf, hleaves, hhashed⟩ | hcollision
      · rcases ih (fun bytes hb => hmarked bytes (hleaves hb)) hhalf with hmem | hcollision
        · exact Or.inl (hleaves hmem)
        · refine Or.inr (hcollision.mono fun x hx => ?_)
          rcases List.mem_append.mp hx with ht | hp
          · exact List.mem_append_left _ (hhashed ht)
          · rw [← List.cons_append]
            exact List.mem_append_right _ (List.mem_append_left _ hp)
      · refine Or.inr (hcollision.mono fun x hx => ?_)
        rcases List.mem_cons.mp hx with rfl | ht
        · simp
        · exact List.mem_append_left _ ht

end HashTree

/-! ### Down from the root of a handoff -/

namespace PaymentTree

variable (digest : List UInt8 → Digest)

/-- The root of some payments is that of a tree with their leaves. -/
theorem exists_tree {payments : List PaymentRecord} (hne : payments ≠ []) :
    ∃ t : HashTree, root digest (levels digest (leavesOf digest payments)) = t.top digest ∧
      t.leaves = (inOrder payments).map leafString ∧
      t.hashed digest ⊆ handoffStrings digest payments := by
  have hne' : (inOrder payments).map (fun p => HashTree.leaf (leafString p)) ≠ [] := by
    intro hnil
    exact hne (List.Perm.eq_nil ((List.map_eq_nil_iff.mp hnil ▸ inOrder_perm payments).symm))
  have hmap : ((inOrder payments).map fun p => HashTree.leaf (leafString p)).map
      (HashTree.top digest) = leavesOf digest payments := by
    rw [List.map_map]
    rfl
  obtain ⟨t, hroot, hleaves, hhashed⟩ := HashTree.exists_of_levels digest _ _ rfl hne'
  rw [hmap] at hroot hhashed
  refine ⟨t, hroot, ?_, fun x hx => ?_⟩
  · rw [hleaves, List.flatMap_map]
    simp [HashTree.leaves, ← List.map_eq_flatMap]
  · rcases List.mem_append.mp (hhashed hx) with hjoin | hleaf
    · exact List.mem_append_right _ hjoin
    · simp only [List.flatMap_map, HashTree.hashed, List.mem_flatMap, List.mem_singleton] at hleaf
      obtain ⟨p, hp, rfl⟩ := hleaf
      exact List.mem_append_left _ (List.mem_append_right _
        (List.mem_map_of_mem ((inOrder_perm payments).mem_iff.mp hp)))

/-- No string that is hashed to follow a proof is empty. -/
theorem ne_nil_of_mem_pathStrings : ∀ {path : List Digest} {node : Digest} {x : List UInt8},
    x ∈ pathStrings digest node path → x ≠ [] := by
  intro path
  induction path with
  | nil => intro node x hx; simp [pathStrings] at hx
  | cons sibling rest ih =>
      intro node x hx
      rcases List.mem_cons.mp hx with rfl | hrest
      · exact List.cons_ne_nil _ _
      · exact ih hrest

/-- What a proof leads to is the digest of the last string that was hashed. -/
theorem exists_string_of_path (bytes : List UInt8) (path : List Digest) :
    ∃ x ∈ bytes :: pathStrings digest (digest bytes) path,
      path.foldl (parent digest) (digest bytes) = digest x := by
  induction path using List.reverseRecOn with
  | nil => exact ⟨bytes, by simp, rfl⟩
  | append_singleton path sibling ih =>
      rw [List.foldl_append, pathStrings_concat]
      exact ⟨parentBytes (path.foldl (parent digest) (digest bytes)) sibling, by simp, rfl⟩

/-- A proof of a leaf does not lead to the digest of no bytes. -/
theorem collision_of_path_to_nil {text : List UInt8} {path : List Digest}
    (h : path.foldl (parent digest) (digest (leafMark :: text)) = digest []) :
    Collision digest ([] :: (leafMark :: text) ::
      pathStrings digest (digest (leafMark :: text)) path) := by
  obtain ⟨x, hx, heq⟩ := exists_string_of_path digest (leafMark :: text) path
  have hne : x ≠ [] := by
    rcases List.mem_cons.mp hx with rfl | hp
    · exact List.cons_ne_nil _ _
    · exact ne_nil_of_mem_pathStrings digest hp
  exact ⟨x, List.mem_cons_of_mem _ hx, [], by simp, hne, by rw [← heq, h]⟩

/--
**A payment that verifies was handed off.**  Against the root of any handoff, that of no
payments included, and with any list of texts as the proof: a payment whose leaf
verifies has the canonical text of one that was handed off, or two different strings
with the same digest are among those that were hashed.
-/
theorem handedOff_of_verify {payments : List PaymentRecord} {handedOff : Handoff}
    {r : PaymentRecord} (hhandoff : handoff digest payments = .ok handedOff)
    (hfinite : r.amount.isFinite = true) (proof : List String) :
    ∃ d, leaf digest r = .ok d ∧
      (verify digest d.hex proof handedOff.root = true →
        (∃ q ∈ payments, q.toJson.canonical = r.toJson.canonical) ∨
        Collision digest (handoffStrings digest payments ++
          leafString r :: verifyStrings digest d.hex proof)) := by
  refine ⟨digest (leafString r), leaf_of_finite digest hfinite, fun hverify => ?_⟩
  rw [eq_of_handoff digest hhandoff] at hverify
  obtain ⟨path, htop, hstrings⟩ := exists_path_of_verify digest hverify
  rw [hstrings]
  by_cases hne : payments = []
  · subst hne
    refine Or.inr ((collision_of_path_to_nil digest (htop.trans ?_)).mono fun x hx => ?_)
    · rw [show leavesOf digest [] = [] from by simp [leavesOf, inOrder],
        levels_of_le digest (by simp)]
      rfl
    · rcases List.mem_cons.mp hx with rfl | hrest
      · simp [handoffStrings]
      · exact List.mem_append_right _ hrest
  · obtain ⟨t, hroot, hleaves, hhashed⟩ := exists_tree digest hne
    have hmarked : ∀ bytes ∈ t.leaves, ∃ text, bytes = leafMark :: text := by
      intro bytes hbytes
      rw [hleaves] at hbytes
      obtain ⟨p, -, rfl⟩ := List.mem_map.mp hbytes
      exact ⟨_, rfl⟩
    rcases HashTree.mem_leaves_of_path digest _ path hmarked (htop.trans hroot)
      with hmem | hcollision
    · rw [hleaves] at hmem
      obtain ⟨q, hq, heq⟩ := List.mem_map.mp hmem
      exact Or.inl ⟨q, (inOrder_perm payments).mem_iff.mp hq, canonical_of_leafString heq⟩
    · refine Or.inr (hcollision.mono fun x hx => ?_)
      rcases List.mem_append.mp hx with ht | hrest
      · exact List.mem_append_left _ (hhashed ht)
      · exact List.mem_append_right _ hrest

/--
The second of three payments has a proof that verifies, and so it was handed off or there
is a collision.
-/
theorem handedOff_of_verify_second :
    ∃ handedOff d proof, handoff sha256 (["0xa", "0xb", "0xc"].map unitPayment) = .ok handedOff ∧
      (unitPayment "0xb").amount.isFinite = true ∧
      leaf sha256 (unitPayment "0xb") = .ok d ∧
      verify sha256 d.hex proof handedOff.root = true ∧
      ((∃ q ∈ ["0xa", "0xb", "0xc"].map unitPayment,
          q.toJson.canonical = (unitPayment "0xb").toJson.canonical) ∨
        Collision sha256 (handoffStrings sha256 (["0xa", "0xb", "0xc"].map unitPayment) ++
          leafString (unitPayment "0xb") :: verifyStrings sha256 d.hex proof)) := by
  have hunit : (1.0 : Float).isFinite = true := by decide
  have hall : ∀ p ∈ ["0xa", "0xb", "0xc"].map unitPayment, p.amount.isFinite = true := by
    intro p hp
    obtain ⟨payee, -, rfl⟩ := List.mem_map.mp hp
    exact hunit
  have hhandoff := handoff_of_finite sha256 hall
  have haccounts := accounts_of_finite sha256 hall
  have hmem : unitPayment "0xb" ∈
      (rowsOf sha256 (["0xa", "0xb", "0xc"].map unitPayment)).map (·.payment) :=
    haccounts.perm.mem_iff.mpr (by simp)
  obtain ⟨row, hrow, hpayment⟩ := List.mem_map.mp hmem
  obtain ⟨d, hd, hsound⟩ := handedOff_of_verify sha256 hhandoff
    (show (unitPayment "0xb").amount.isFinite = true from hunit) row.proof
  obtain ⟨d', hd', hleaf⟩ := haccounts.leaf_eq row hrow
  rw [hpayment, hd] at hd'
  obtain rfl : d = d' := Except.ok.inj hd'
  have hverify := haccounts.verified row hrow
  rw [hleaf] at hverify
  exact ⟨_, d, row.proof, hhandoff, hunit, hd, hverify, hsound hverify⟩

end PaymentTree

end Rewards
