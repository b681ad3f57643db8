/-
What the order in which payments are given means for their handoff.

The order of a handoff compares five fields of a payment.  It leaves out when the
payment can be claimed, so payments may tie that are hashed as different bytes.  Sorting
keeps payments that tie as they were given (`tied_inOrder`), and everything else about
the sorted list is forced: lists that ascend and agree on what ties are the same
(`eq_of_tied`).  A permutation is therefore handed off alike exactly if it does not
move payments that tie past each other.
-/
import Rewards.Proofs.Decimal.Order
import Rewards.Proofs.Payment.Handoff
import Rewards.Proofs.Sorting

namespace Rewards.PaymentTree

/-! ### Payments that tie -/

theorem compareText_eq_iff {s t : String} : compareText s t = .eq ↔ s = t := by
  show compare s t = .eq ↔ s = t
  exact Std.compare_eq_iff_eq

/-- **Payments tie exactly if they differ at most in when they can be claimed.** -/
theorem order_eq_iff {a b : PaymentRecord} :
    order a b = .eq ↔ a.payee = b.payee ∧ a.token = b.token ∧ a.programId = b.programId ∧
      a.paymentCycle = b.paymentCycle ∧ a.amount = b.amount := by
  unfold order
  have hamount : Decimal.rank a.amount = Decimal.rank b.amount ↔ a.amount = b.amount :=
    ⟨Decimal.rank_injective, congrArg Decimal.rank⟩
  simp only [Ordering.then_eq_eq, compareText_eq_iff, Std.compare_eq_iff_eq, hamount]

/-- The payments of a list that tie with one, as they stand. -/
def tied (r : PaymentRecord) (payments : List PaymentRecord) : List PaymentRecord :=
  payments.filter (fun p => order r p = .eq)

theorem mem_tied {r p : PaymentRecord} {payments : List PaymentRecord} :
    p ∈ tied r payments ↔ p ∈ payments ∧ order r p = .eq := by
  simp [tied]

theorem order_self (r : PaymentRecord) : order r r = .eq :=
  order_eq_iff.mpr ⟨rfl, rfl, rfl, rfl, rfl⟩

/-! ### Sorting keeps ties -/

/-- Payments that tie with the same one are in any order. -/
theorem order_isLE_of_tied {r a b : PaymentRecord} (ha : order r a = .eq) (hb : order r b = .eq) :
    (order a b).isLE = true := by
  have hab : order a b = .eq := Std.TransCmp.eq_trans (Std.OrientedCmp.eq_symm ha) hb
  rw [hab]
  rfl

/-- **Sorting leaves payments that tie as they were given.** -/
theorem tied_inOrder (r : PaymentRecord) (payments : List PaymentRecord) :
    tied r (inOrder payments) = tied r payments :=
  filter_mergeSort order_isLE_trans order_isLE_total
    (fun _ _ ha hb => order_isLE_of_tied (of_decide_eq_true ha) (of_decide_eq_true hb)) payments

/-! ### What ties tell about a sorted list -/

/-- **Lists that ascend are the same if the same payments tie in them, in the same order.** -/
theorem eq_of_tied {l m : List PaymentRecord}
    (hl : l.Pairwise (fun a b => (order a b).isLE = true))
    (hm : m.Pairwise (fun a b => (order a b).isLE = true))
    (htied : ∀ r, tied r l = tied r m) : l = m := by
  refine eq_of_ties (fun a b => (order a b).isLE) (fun r p => order r p = .eq) (fun a => ?_)
    (fun a => decide_eq_true (order_self a)) (fun a b hab hba => ?_) hl hm htied
  · rw [order_self]
    rfl
  · exact decide_eq_true (Std.OrientedCmp.isLE_antisymm hab hba)

/-- **Lists are sorted alike exactly if the same payments tie in them, in the same order.** -/
theorem inOrder_eq_iff {payments others : List PaymentRecord} :
    inOrder payments = inOrder others ↔ ∀ r, tied r payments = tied r others := by
  constructor
  · intro h r
    rw [← tied_inOrder r payments, h, tied_inOrder]
  · intro h
    refine eq_of_tied (pairwise_inOrder payments) (pairwise_inOrder others) fun r => ?_
    rw [tied_inOrder, tied_inOrder, h]

/-! ### Handing off a permutation -/

variable (digest : List UInt8 → Digest)

/-- Payments are handed off alike exactly if they are sorted alike. -/
theorem handoff_eq_iff_inOrder {payments others : List PaymentRecord}
    (hfinite : ∀ p ∈ payments, p.amount.isFinite = true)
    (hothers : ∀ p ∈ others, p.amount.isFinite = true) :
    handoff digest payments = handoff digest others ↔ inOrder payments = inOrder others := by
  constructor
  · intro h
    rw [handoff_of_finite digest hfinite, handoff_of_finite digest hothers] at h
    have hrows := congrArg (List.map (·.payment)) (Handoff.mk.inj (Except.ok.inj h)).2
    rwa [map_payment_rowsOf, map_payment_rowsOf] at hrows
  · intro h
    unfold handoff
    rw [h]

/-- Payments that tie and can be claimed at the same time are the same. -/
theorem eq_of_order_eq {a b : PaymentRecord} (h : order a b = .eq)
    (hfrom : a.validFrom = b.validFrom) (hto : a.validTo = b.validTo) : a = b := by
  obtain ⟨hpayee, htoken, hprogram, hcycle, hamount⟩ := order_eq_iff.mp h
  cases a
  cases b
  simp_all

/-- Where payments that tie are the same, a permutation keeps what ties. -/
theorem tied_eq_of_perm {payments others : List PaymentRecord} (hperm : payments.Perm others)
    (h : ∀ a ∈ payments, ∀ b ∈ payments, order a b = .eq → a = b) (r : PaymentRecord) :
    tied r payments = tied r others := by
  have hfilter : (tied r payments).Perm (tied r others) := hperm.filter _
  have hsame : ∀ a ∈ tied r payments, ∀ b ∈ tied r payments, a = b := by
    intro a ha b hb
    obtain ⟨hamem, hra⟩ := mem_tied.mp ha
    obtain ⟨hbmem, hrb⟩ := mem_tied.mp hb
    exact h a hamem b hbmem (Std.TransCmp.eq_trans (Std.OrientedCmp.eq_symm hra) hrb)
  refine hfilter.eq_of_pairwise (fun _ _ _ _ hab _ => hab)
    (List.pairwise_of_forall_mem_list hsame)
    (List.pairwise_of_forall_mem_list fun a ha b hb => ?_)
  exact hsame a (hfilter.mem_iff.mpr ha) b (hfilter.mem_iff.mpr hb)

/--
**A permutation is handed off alike exactly if it keeps the order of payments that tie.**
So the handoff does not depend on the order of the payments where those that tie can be
claimed at the same time, and it does wherever a permutation moves others past each other.
-/
theorem handoff_eq_iff_of_perm {payments others : List PaymentRecord}
    (hfinite : ∀ p ∈ payments, p.amount.isFinite = true) (hperm : payments.Perm others) :
    (handoff digest payments = handoff digest others ↔
      ∀ r, tied r payments = tied r others) ∧
    ((∀ a ∈ payments, ∀ b ∈ payments, order a b = .eq →
        a.validFrom = b.validFrom ∧ a.validTo = b.validTo) →
      handoff digest payments = handoff digest others) := by
  have hiff := (handoff_eq_iff_inOrder digest hfinite
    fun p hp => hfinite p (hperm.mem_iff.mpr hp)).trans inOrder_eq_iff
  refine ⟨hiff, fun hwindow => hiff.mpr (tied_eq_of_perm hperm fun a ha b hb hab => ?_)⟩
  obtain ⟨hfrom, hto⟩ := hwindow a ha b hb hab
  exact eq_of_order_eq hab hfrom hto

/-- A payment of one unit that can be claimed up to some block. -/
def claimable (payee : String) (validTo : Block) : PaymentRecord :=
  { unitPayment payee with validTo := validTo }

theorem isFinite_claimable (claims : List (String × Block)) {p : PaymentRecord}
    (hp : p ∈ claims.map fun c => claimable c.1 c.2) : p.amount.isFinite = true := by
  obtain ⟨c, -, rfl⟩ := List.mem_map.mp hp
  show (1.0 : Float).isFinite = true
  decide

/-- Payments of different payees are handed off alike in either order. -/
theorem handoff_eq_iff_of_perm_swapped :
    (∀ p ∈ [claimable "0xa" 300, claimable "0xb" 400], p.amount.isFinite = true) ∧
    [claimable "0xa" 300, claimable "0xb" 400].Perm [claimable "0xb" 400, claimable "0xa" 300] ∧
    handoff sha256 [claimable "0xa" 300, claimable "0xb" 400] =
      handoff sha256 [claimable "0xb" 400, claimable "0xa" 300] := by
  have hfinite : ∀ p ∈ [claimable "0xa" 300, claimable "0xb" 400], p.amount.isFinite = true :=
    fun _ => isFinite_claimable [("0xa", 300), ("0xb", 400)]
  have hperm : [claimable "0xa" 300, claimable "0xb" 400].Perm
      [claimable "0xb" 400, claimable "0xa" 300] := .swap _ _ _
  refine ⟨hfinite, hperm, (handoff_eq_iff_of_perm sha256 hfinite hperm).2 ?_⟩
  decide

/-- Payments that tie are handed off as they were given, so the order of the payments shows. -/
theorem handoff_depends_on_order :
    (∀ p ∈ [claimable "0xa" 300, claimable "0xb" 300, claimable "0xb" 400],
      p.amount.isFinite = true) ∧
    [claimable "0xa" 300, claimable "0xb" 300, claimable "0xb" 400].Perm
      [claimable "0xa" 300, claimable "0xb" 400, claimable "0xb" 300] ∧
    handoff sha256 [claimable "0xa" 300, claimable "0xb" 300, claimable "0xb" 400] ≠
      handoff sha256 [claimable "0xa" 300, claimable "0xb" 400, claimable "0xb" 300] := by
  have hfinite : ∀ p ∈ [claimable "0xa" 300, claimable "0xb" 300, claimable "0xb" 400],
      p.amount.isFinite = true :=
    fun _ => isFinite_claimable [("0xa", 300), ("0xb", 300), ("0xb", 400)]
  have hperm : [claimable "0xa" 300, claimable "0xb" 300, claimable "0xb" 400].Perm
      [claimable "0xa" 300, claimable "0xb" 400, claimable "0xb" 300] := .cons _ (.swap _ _ _)
  refine ⟨hfinite, hperm, fun h => ?_⟩
  have hsorted := (handoff_eq_iff_inOrder sha256 hfinite
    fun p hp => hfinite p (hperm.mem_iff.mpr hp)).mp h
  have htied := inOrder_eq_iff.mp hsorted (claimable "0xb" 300)
  revert htied
  decide

end Rewards.PaymentTree
