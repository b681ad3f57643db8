/-
Every payment that is handed off can be proved.

A proof lists siblings and nothing else: it does not say on which side a sibling
stands, and a node without a sibling adds nothing to it.  Both are harmless.  Joining
two nodes does not depend on their sides, and a node without a sibling is itself the
node above it.  So one step of a proof, which may be no step at all, leads from a node
to the node above it (`above_getElem?`), and by induction over the levels the whole
proof leads to the root.

Handing payments off can only fail at a payment whose amount is not finite.
-/
import Rewards.Proofs.Payment.HashTree
import Rewards.Proofs.Payment.Leaf
import Rewards.Proofs.Payment.Order
import Rewards.Proofs.Payment.Table

namespace Rewards.PaymentTree

variable (digest : List UInt8 → Digest)

/-! ### From a node to the one above it -/

theorem siblingIndex_add_two (i : Nat) : siblingIndex (i + 2) = siblingIndex i + 2 := by
  unfold siblingIndex
  split <;> split <;> omega

/-- **A node joined with its sibling, if it has one, is the node above it.** -/
theorem above_getElem? (level : List Digest) : ∀ {i : Nat} {node : Digest},
    level[i]? = some node →
      (above digest level)[i / 2]? =
        some ((level[siblingIndex i]?).toList.foldl (parent digest) node) := by
  fun_induction above digest level with
  | case1 a b rest ih =>
      intro i node h
      rcases i with _ | _ | i
      · obtain rfl : a = node := by simpa using h
        rfl
      · obtain rfl : b = node := by simpa using h
        show some (parent digest a b) = some (parent digest b a)
        rw [parent_comm]
      · have hrest : rest[i]? = some node := by simpa using h
        rw [siblingIndex_add_two, show (i + 2) / 2 = i / 2 + 1 by omega]
        simpa using ih hrest
  | case2 level hshort =>
      intro i node h
      rcases level with _ | ⟨a, _ | ⟨b, rest⟩⟩
      · simp at h
      · obtain ⟨hi, rfl⟩ := List.getElem?_eq_some_iff.mp h
        obtain rfl : i = 0 := by simpa using hi
        rfl
      · exact absurd rfl (hshort a b rest)

/-! ### From a leaf to the root -/

/--
**The siblings of a node lead to the root.**  The induction is on the length of the
level, because the levels above it are those of a shorter level.
-/
theorem foldl_siblings : ∀ (n : Nat) {level : List Digest}, level.length = n →
    ∀ {i : Nat} {node : Digest}, level[i]? = some node →
      (siblings (levels digest level) i).foldl (parent digest) node =
        root digest (levels digest level) := by
  intro n
  induction n using Nat.strong_induction_on with
  | _ n ih =>
      intro level hn i node hnode
      by_cases hlt : 1 < level.length
      · obtain ⟨rest, hrest⟩ := levels_eq_cons digest (above digest level)
        have hshorter : (above digest level).length < n := by rw [length_above]; omega
        have hup := ih _ hshorter rfl (above_getElem? digest level hnode)
        rw [root_levels_of_lt digest hlt, ← hup, levels_of_lt digest hlt, hrest, siblings,
          List.foldl_append]
      · obtain ⟨hi, hval⟩ := List.getElem?_eq_some_iff.mp hnode
        obtain ⟨a, rfl⟩ := List.length_eq_one_iff.mp (show level.length = 1 by omega)
        obtain rfl : i = 0 := by simpa using hi
        subst hval
        rw [levels_of_le digest (by simp)]
        rfl

/-- Following digests that are written out is joining them one after the other. -/
theorem climb_map_hex : ∀ (path : List Digest) (node : Digest),
    climb digest node (path.map Digest.hex) = some (path.foldl (parent digest) node) := by
  intro path
  induction path with
  | nil => intro node; rfl
  | cons sibling rest ih =>
      intro node
      simp only [List.map_cons, climb, Digest.ofHex?_hex, List.foldl_cons]
      exact ih _

/-- A proof written out verifies if its digests lead to the root. -/
theorem verify_hex {node top : Digest} {path : List Digest}
    (h : path.foldl (parent digest) node = top) :
    verify digest node.hex (path.map Digest.hex) top.hex = true := by
  unfold verify
  rw [Digest.ofHex?_hex, Option.bind_some, climb_map_hex, h, Digest.lower_hex]
  exact beq_self_eq_true _

/-! ### Handing off -/

/-- The leaves of payments with finite amounts, in the order of the payments. -/
def leavesOf (payments : List PaymentRecord) : List Digest :=
  (inOrder payments).map fun p => digest (leafString p)

/-- The rows of payments with finite amounts. -/
def rowsOf (payments : List PaymentRecord) : List ProvenPayment :=
  (((inOrder payments).zip (leavesOf digest payments)).zipIdx).map fun ((payment, leaf), index) =>
    ⟨payment, leaf.hex, (siblings (levels digest (leavesOf digest payments)) index).map Digest.hex⟩

/-- What is handed off for payments with finite amounts. -/
theorem handoff_of_finite {payments : List PaymentRecord}
    (h : ∀ p ∈ payments, p.amount.isFinite = true) :
    handoff digest payments =
      .ok ⟨(root digest (levels digest (leavesOf digest payments))).hex,
        rowsOf digest payments⟩ := by
  have hleaves : (inOrder payments).mapM (leaf digest) = .ok (leavesOf digest payments) :=
    Outcome.mapM_of_forall fun p hp =>
      leaf_of_finite digest (h p ((inOrder_perm payments).mem_iff.mp hp))
  simp only [handoff, hleaves]
  rfl

/-- **Payments are handed off only if all amounts are finite.** -/
theorem finite_of_handoff {payments : List PaymentRecord} {handedOff : Handoff}
    (h : handoff digest payments = .ok handedOff) : ∀ p ∈ payments, p.amount.isFinite = true := by
  intro p hp
  unfold handoff at h
  obtain ⟨leaves, hleaves, -⟩ := Outcome.bind_eq_ok.mp h
  obtain ⟨d, hd⟩ :=
    Outcome.exists_of_mapM hleaves ((inOrder_perm payments).mem_iff.mpr hp)
  exact finite_of_leaf digest hd

theorem eq_of_handoff {payments : List PaymentRecord} {handedOff : Handoff}
    (h : handoff digest payments = .ok handedOff) :
    handedOff = ⟨(root digest (levels digest (leavesOf digest payments))).hex,
      rowsOf digest payments⟩ := by
  rw [handoff_of_finite digest (finite_of_handoff digest h)] at h
  exact (Except.ok.inj h).symm

/-- The rows hold the payments in order. -/
theorem map_payment_rowsOf (payments : List PaymentRecord) :
    (rowsOf digest payments).map (·.payment) = inOrder payments := by
  have hlen : (inOrder payments).length ≤ (leavesOf digest payments).length := by
    simp [leavesOf]
  unfold rowsOf
  rw [List.map_map]
  have hfun : ((fun row : ProvenPayment => row.payment) ∘
      fun x : (PaymentRecord × Digest) × Nat => (⟨x.1.1, x.1.2.hex,
        (siblings (levels digest (leavesOf digest payments)) x.2).map Digest.hex⟩ :
          ProvenPayment)) = Prod.fst ∘ Prod.fst := rfl
  rw [hfun, ← List.map_map, List.zipIdx_map_fst, List.map_fst_zip hlen]

/-- A row has the leaf of its payment and the siblings of that leaf. -/
theorem exists_index_of_mem_rowsOf {payments : List PaymentRecord} {row : ProvenPayment}
    (h : row ∈ rowsOf digest payments) :
    ∃ i, (inOrder payments)[i]? = some row.payment ∧
      (leavesOf digest payments)[i]? = some (digest (leafString row.payment)) ∧
      row.leaf = (digest (leafString row.payment)).hex ∧
      row.proof = (siblings (levels digest (leavesOf digest payments)) i).map Digest.hex := by
  obtain ⟨⟨⟨p, d⟩, i⟩, hmem, rfl⟩ := List.mem_map.mp h
  obtain ⟨hp, hd⟩ := List.getElem?_zip_eq_some.mp (List.mk_mem_zipIdx_iff_getElem?.mp hmem)
  have hpd : d = digest (leafString p) := by
    have hget := hd
    simp only [leavesOf, List.getElem?_map, hp, Option.map_some, Option.some.injEq] at hget
    exact hget.symm
  subst hpd
  exact ⟨i, hp, hd, rfl, rfl⟩

/-! ### What payments get from being handed off -/

/-- A handoff accounts for some payments: each has its row, and each row can be proved. -/
structure Accounts (payments : List PaymentRecord) (handedOff : Handoff) : Prop where
  /-- There is a row for each payment. -/
  length_rows : handedOff.rows.length = payments.length
  /-- The table has the fields of the rows in its columns, the leaf and the proof among them. -/
  holdRows : Handoff.HoldRows handedOff.columns handedOff.rows
  /-- The rows hold the payments, each as often as it was given. -/
  perm : (handedOff.rows.map (·.payment)).Perm payments
  /-- The payments of the rows ascend. -/
  ascending : (handedOff.rows.map (·.payment)).Pairwise (fun a b => (order a b).isLE = true)
  /-- A row has the leaf of its payment. -/
  leaf_eq : ∀ row ∈ handedOff.rows, ∃ d, leaf digest row.payment = .ok d ∧ row.leaf = d.hex
  /-- The proof of a row leads from its leaf to the root. -/
  verified : ∀ row ∈ handedOff.rows, verify digest row.leaf row.proof handedOff.root = true

theorem length_rowsOf (payments : List PaymentRecord) :
    (rowsOf digest payments).length = payments.length := by
  rw [← (inOrder_perm payments).length_eq, ← map_payment_rowsOf digest payments, List.length_map]

theorem accounts_of_finite {payments : List PaymentRecord}
    (h : ∀ p ∈ payments, p.amount.isFinite = true) :
    Accounts digest payments ⟨(root digest (levels digest (leavesOf digest payments))).hex,
      rowsOf digest payments⟩ := by
  refine ⟨length_rowsOf digest payments, Handoff.holdRows_columns _, ?_, ?_, ?_, ?_⟩
  · rw [map_payment_rowsOf]
    exact inOrder_perm payments
  · rw [map_payment_rowsOf]
    exact pairwise_inOrder payments
  · intro row hrow
    obtain ⟨i, hp, -, hleaf, -⟩ := exists_index_of_mem_rowsOf digest hrow
    have hmem : row.payment ∈ payments :=
      (inOrder_perm payments).mem_iff.mp (List.mem_of_getElem? hp)
    exact ⟨_, leaf_of_finite digest (h _ hmem), hleaf⟩
  · intro row hrow
    obtain ⟨i, -, hd, hleaf, hproof⟩ := exists_index_of_mem_rowsOf digest hrow
    rw [hleaf, hproof]
    exact verify_hex digest (foldl_siblings digest _ rfl hd)

/--
**Payments are handed off exactly if their amounts are finite, and every one of them can
be proved then.**  It makes no difference how many there are.  The table has a row for each
payment, with its leaf and its proof, and the columns are those of these rows.
-/
theorem handoff_accounts (payments : List PaymentRecord) :
    ((∃ handedOff, handoff digest payments = .ok handedOff) ↔
      ∀ p ∈ payments, p.amount.isFinite = true) ∧
    ∀ handedOff, handoff digest payments = .ok handedOff →
      Accounts digest payments handedOff := by
  refine ⟨⟨?_, fun h => ⟨_, handoff_of_finite digest h⟩⟩, ?_⟩
  · rintro ⟨handedOff, h⟩
    exact finite_of_handoff digest h
  · intro handedOff h
    rw [eq_of_handoff digest h]
    exact accounts_of_finite digest (finite_of_handoff digest h)

/-- A payment of one unit. -/
def unitPayment (payee : String) : PaymentRecord :=
  ⟨payee, 1.0, "0x0000000000000000000000000000000000000001", "0xprogram", 200, 200, 300⟩

/-- Five payments, of which the last one moves up twice, are handed off and can be proved. -/
theorem handoff_accounts_five :
    ∃ handedOff, handoff sha256 (["0xe", "0xb", "0xc", "0xd", "0xa"].map unitPayment) =
        .ok handedOff ∧
      Accounts sha256 (["0xe", "0xb", "0xc", "0xd", "0xa"].map unitPayment) handedOff := by
  have hfinite : ∀ p ∈ ["0xe", "0xb", "0xc", "0xd", "0xa"].map unitPayment,
      p.amount.isFinite = true := by
    intro p hp
    obtain ⟨payee, -, rfl⟩ := List.mem_map.mp hp
    show (1.0 : Float).isFinite = true
    decide
  obtain ⟨hiff, haccounts⟩ :=
    handoff_accounts sha256 (["0xe", "0xb", "0xc", "0xd", "0xa"].map unitPayment)
  obtain ⟨handedOff, hok⟩ := hiff.mpr hfinite
  exact ⟨handedOff, hok, haccounts handedOff hok⟩

end Rewards.PaymentTree
