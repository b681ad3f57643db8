/-
Payments made out of rewards.

A reward becomes a payment if its amount is finite and not below zero, and one that is
not stops all of them.  A payment bears the stamp of the cycle that is paid.  Rewards that
ascend by payee are already in order, so sorting leaves their payments as they are.
-/
import Mathlib
import Rewards.Proofs.Outcome
import Rewards.Proofs.Query.Groups
import Rewards.Rule

namespace Rewards

/-! ### Stamps -/

/-- The last block of a claim is the end of the cycle and the duration, if there is such a block. -/
theorem toNat_claimableUntil (cycle : Block) (duration : UInt64) :
    (claimableUntil cycle duration).toNat = min (cycle.toNat + duration.toNat) (2 ^ 64 - 1) := by
  refine UInt64.toNat_ofNat_of_lt' ?_
  exact Nat.lt_of_le_of_lt (Nat.min_le_right _ _) (by decide)

/-- The payment of a reward, if it can be paid. -/
def stamped (core : CoreParameters) (program : String) (cycle : Block) (duration : UInt64)
    (reward : String × Float) : PaymentRecord :=
  ⟨reward.1, reward.2, core.token, program, cycle, cycle, claimableUntil cycle duration⟩

/-- An amount that can be paid. -/
def IsPayable (amount : Float) : Prop :=
  amount.isFinite = true ∧ ¬ amount < 0.0

theorem requirePayable_eq_ok_iff {payee : String} {amount : Float} :
    requirePayable payee amount = .ok () ↔ IsPayable amount := by
  unfold requirePayable IsPayable
  by_cases h : amount.isFinite && !(amount < 0.0)
  · rw [if_pos h]
    simpa using h
  · rw [if_neg h]
    simpa using h

variable {core : CoreParameters} {program : String} {cycle : Block} {duration : UInt64}

theorem paymentOf_eq_ok_iff {reward : String × Float} {p : PaymentRecord} :
    paymentOf core program cycle duration reward = .ok p ↔
      IsPayable reward.2 ∧ p = stamped core program cycle duration reward := by
  unfold paymentOf
  rw [Outcome.bind_eq_ok]
  constructor
  · rintro ⟨_, hpayable, h⟩
    exact ⟨requirePayable_eq_ok_iff.mp hpayable, (Except.ok.inj h).symm⟩
  · rintro ⟨hpayable, rfl⟩
    exact ⟨(), requirePayable_eq_ok_iff.mpr hpayable, rfl⟩

/-! ### Lists of payments -/

/-- Rewards become payments exactly if all of their amounts can be paid. -/
theorem mapM_paymentOf_eq_ok_iff {rewards : List (String × Float)} {payments : List PaymentRecord} :
    rewards.mapM (paymentOf core program cycle duration) = .ok payments ↔
      (∀ r ∈ rewards, IsPayable r.2) ∧
        payments = rewards.map (stamped core program cycle duration) := by
  constructor
  · intro h
    have hpayable : ∀ r ∈ rewards, IsPayable r.2 := by
      intro r hr
      obtain ⟨p, hp⟩ := Outcome.exists_of_mapM h hr
      exact (paymentOf_eq_ok_iff.mp hp).1
    have hall := Outcome.mapM_of_forall (g := stamped core program cycle duration)
      fun r hr => paymentOf_eq_ok_iff.mpr ⟨hpayable r hr, rfl⟩
    exact ⟨hpayable, Except.ok.inj (h.symm.trans hall)⟩
  · rintro ⟨hpayable, rfl⟩
    exact Outcome.mapM_of_forall fun r hr => paymentOf_eq_ok_iff.mpr ⟨hpayable r hr, rfl⟩

/-- The payments of a table are its rewards with a stamp, sorted by payee. -/
theorem paymentsOf_eq_ok_iff_sorted {table : ResultTable} {rewards : List (String × Float)}
    {payments : List PaymentRecord} (hrewards : table.rewards = .ok rewards) :
    paymentsOf table core program cycle duration = .ok payments ↔
      (∀ r ∈ rewards, IsPayable r.2) ∧
        payments = (rewards.map (stamped core program cycle duration)).mergeSort
          (fun a b => a.payee ≤ b.payee) := by
  rw [paymentsOf, hrewards, Outcome.ok_bind, Outcome.bind_eq_ok]
  constructor
  · rintro ⟨unsorted, hunsorted, h⟩
    obtain ⟨hpayable, rfl⟩ := mapM_paymentOf_eq_ok_iff.mp hunsorted
    exact ⟨hpayable, (Except.ok.inj h).symm⟩
  · rintro ⟨hpayable, rfl⟩
    exact ⟨_, mapM_paymentOf_eq_ok_iff.mpr ⟨hpayable, rfl⟩, rfl⟩

/-- Sorting leaves the payments of ascending rewards as they are. -/
theorem mergeSort_stamped {rewards : List (String × Float)}
    (h : rewards.Pairwise (fun a b => a.1 < b.1)) :
    (rewards.map (stamped core program cycle duration)).mergeSort (fun a b => a.payee ≤ b.payee) =
      rewards.map (stamped core program cycle duration) := by
  refine List.mergeSort_of_pairwise (List.pairwise_map.mpr (h.imp fun {a b} hlt => ?_))
  exact decide_eq_true (le_of_lt hlt)

/-- **The payments of a table of ascending rewards are these rewards with a stamp.** -/
theorem paymentsOf_eq_ok_iff {table : ResultTable} {rewards : List (String × Float)}
    {payments : List PaymentRecord} (hrewards : table.rewards = .ok rewards)
    (hascending : rewards.Pairwise (fun a b => a.1 < b.1)) :
    paymentsOf table core program cycle duration = .ok payments ↔
      (∀ r ∈ rewards, IsPayable r.2) ∧
        payments = rewards.map (stamped core program cycle duration) := by
  rw [paymentsOf_eq_ok_iff_sorted hrewards, mergeSort_stamped hascending]

/-- Whatever the order of the rewards, the payments are these with a stamp. -/
theorem perm_of_paymentsOf {table : ResultTable} {payments : List PaymentRecord}
    (h : paymentsOf table core program cycle duration = .ok payments) :
    ∃ rewards, table.rewards = .ok rewards ∧
      payments.Perm (rewards.map (stamped core program cycle duration)) := by
  obtain ⟨rewards, hrewards, -⟩ := Outcome.bind_eq_ok.mp h
  obtain ⟨-, rfl⟩ := (paymentsOf_eq_ok_iff_sorted hrewards).mp h
  exact ⟨rewards, hrewards, List.mergeSort_perm _ _⟩

/-! ### Payees -/

/-- There are as many payees as payments if no payee is paid twice. -/
theorem uniquePayees_of_ascending {payments : List PaymentRecord}
    (h : payments.Pairwise (fun p q => p.payee < q.payee)) :
    (PaymentSummary.ofPayments payments).uniquePayees = payments.length := by
  have hnodup : (payments.map (·.payee)).Nodup :=
    List.pairwise_map.mpr (h.imp fun hlt => ne_of_lt hlt)
  show (distinct (payments.map (·.payee))).length = _
  rw [length_distinct, List.toFinset_card_of_nodup hnodup, List.length_map]

end Rewards
