/-
Normalization loses and alters nothing.

The rows of a table are turned into payments one by one, and the first of them that cannot be
paid stops everything, so which row is reported is decided before anything is sorted.  Sorting
then moves whole payments only: it compares payees and leaves the payments of one payee in the
order of their rows.  Together with the stamp that every payment bears this says what the
payments are, so `Normalizes` is not only true of them but describes them completely
(`normalizes_iff`).
-/
import Rewards.Proofs.Payment.Records
import Rewards.Proofs.Sorting
import Rewards.Proofs.Table.Totals
import Rewards.Proofs.Utf8

namespace Rewards

/-! ### Rows -/

namespace ResultTable

/-- **There is a row to read for every row of a table.** -/
theorem length_rows {table : ResultTable} (hshape : table.IsWellFormed)
    (hlists : table.ListsRewards) : table.rows.length = table.rowCount := by
  obtain ⟨payee, hpayee⟩ := mem_map_fst_iff_lookup.mp hlists.payees.present
  obtain ⟨amount, hamount⟩ := mem_map_fst_iff_lookup.mp hlists.amounts.present
  have hbatch : ∀ batch ∈ table.batches,
      ((batch.cells (table.columnNames.idxOf payeeColumn)).zip
        (batch.cells (table.columnNames.idxOf amountColumn))).length = batch.rowCount := by
    intro batch hbatch
    have hpayees : (batch.cells (table.columnNames.idxOf payeeColumn)).length = batch.rowCount :=
      ((hshape batch hbatch).cells hpayee).1
    have hamounts : (batch.cells (table.columnNames.idxOf amountColumn)).length = batch.rowCount :=
      ((hshape batch hbatch).cells hamount).1
    rw [List.length_zip, hpayees, hamounts, Nat.min_self]
  rw [rows, List.length_flatMap, List.map_congr_left hbatch, List.sum_eq_foldl, List.foldl_map]
  rfl

end ResultTable

/-! ### Rewards that cannot be paid -/

/-- The problem with an amount that cannot be paid. -/
def unpayable (payee : String) (amount : Float) : Problem :=
  .execution "normalizing payments"
    (.told ("invalid amount " ++ Typed.floatText amount ++ " for payee " ++ payee))

variable {core : CoreParameters} {program : String} {cycle : Block} {duration : UInt64}

theorem paymentOf_eq_error_iff {reward : String × Float} {problem : Problem} :
    paymentOf core program cycle duration reward = .error problem ↔
      ¬ IsPayable reward.2 ∧ problem = unpayable reward.1 reward.2 := by
  unfold paymentOf requirePayable IsPayable
  by_cases h : reward.2.isFinite && !(reward.2 < 0.0)
  · rw [if_pos h]
    have hpayable : reward.2.isFinite = true ∧ ¬ reward.2 < 0.0 := by simpa using h
    constructor
    · intro hproblem
      cases hproblem
    · rintro ⟨hnot, -⟩
      exact absurd hpayable hnot
  · rw [if_neg h]
    have hpayable : ¬ (reward.2.isFinite = true ∧ ¬ reward.2 < 0.0) := by simpa using h
    constructor
    · intro hproblem
      cases hproblem
      exact ⟨hpayable, rfl⟩
    · rintro ⟨-, rfl⟩
      rfl

variable {table : ResultTable} {rewards : List (String × Float)}

/-- **The first reward that cannot be paid is reported.** -/
theorem paymentsOf_eq_error_iff (hrewards : table.rewards = .ok rewards) {problem : Problem} :
    paymentsOf table core program cycle duration = .error problem ↔
      ∃ before payee amount after, rewards = before ++ (payee, amount) :: after ∧
        (∀ r ∈ before, IsPayable r.2) ∧ ¬ IsPayable amount ∧ problem = unpayable payee amount := by
  have hpaid : ∀ r : String × Float, (∃ p, paymentOf core program cycle duration r = .ok p) ↔
      IsPayable r.2 := fun r =>
    ⟨fun ⟨_, h⟩ => (paymentOf_eq_ok_iff.mp h).1, fun h => ⟨_, paymentOf_eq_ok_iff.mpr ⟨h, rfl⟩⟩⟩
  rw [paymentsOf, hrewards, Outcome.ok_bind, Outcome.bind_eq_error, Outcome.mapM_eq_error]
  constructor
  · rintro (⟨before, ⟨payee, amount⟩, after, hsplit, hbefore, hfirst⟩ | ⟨_, -, h⟩)
    · obtain ⟨hnot, rfl⟩ := paymentOf_eq_error_iff.mp hfirst
      exact ⟨before, payee, amount, after, hsplit, fun r hr => (hpaid r).mp (hbefore r hr), hnot,
        rfl⟩
    · cases h
  · rintro ⟨before, payee, amount, after, hsplit, hbefore, hnot, rfl⟩
    exact Or.inl ⟨before, (payee, amount), after, hsplit, fun r hr => (hpaid r).mpr (hbefore r hr),
      paymentOf_eq_error_iff.mpr ⟨hnot, rfl⟩⟩

/-! ### Payments with their stamp -/

/-- The reward that is paid. -/
def PaymentRecord.reward (p : PaymentRecord) : String × Float :=
  (p.payee, p.amount)

/-- A payment bears the stamp of a cycle of a program. -/
structure IsStamped (core : CoreParameters) (program : String) (cycle : Block)
    (duration : UInt64) (p : PaymentRecord) : Prop where
  token_eq : p.token = core.token
  programId_eq : p.programId = program
  paymentCycle_eq : p.paymentCycle = cycle
  /-- It can be claimed from the end of the cycle on. -/
  validFrom_eq : p.validFrom = cycle
  /-- It can be claimed for some blocks more, as far as there are blocks. -/
  validTo_eq : p.validTo.toNat = min (cycle.toNat + duration.toNat) (2 ^ 64 - 1)
  /-- So there is a block at which it can be claimed. -/
  validFrom_le : p.validFrom ≤ p.validTo

theorem isStamped_stamped (reward : String × Float) :
    IsStamped core program cycle duration (stamped core program cycle duration reward) := by
  have hcycle : cycle.toNat < 2 ^ 64 := cycle.toNat_lt
  have hto := toNat_claimableUntil cycle duration
  refine ⟨rfl, rfl, rfl, rfl, hto, UInt64.le_iff_toNat_le.mpr ?_⟩
  show cycle.toNat ≤ (claimableUntil cycle duration).toNat
  omega

/-- The stamp and the reward are all there is to a payment. -/
theorem IsStamped.eq_stamped {p : PaymentRecord} (h : IsStamped core program cycle duration p) :
    p = stamped core program cycle duration p.reward := by
  have hto : p.validTo = claimableUntil cycle duration :=
    UInt64.toNat_inj.mp (h.validTo_eq.trans (toNat_claimableUntil cycle duration).symm)
  cases p
  simp only [stamped, PaymentRecord.reward, PaymentRecord.mk.injEq]
  exact ⟨trivial, trivial, h.token_eq, h.programId_eq, h.paymentCycle_eq, h.validFrom_eq, hto⟩

/-! ### What the payments of some rows are -/

/-- Some payments are those of some rewards: each reward is paid, and nothing else. -/
structure Normalizes (core : CoreParameters) (program : String) (cycle : Block)
    (duration : UInt64) (rewards : List (String × Float)) (payments : List PaymentRecord) :
    Prop where
  /-- There is one payment for each reward, of the same amount to the same payee. -/
  perm : (payments.map PaymentRecord.reward).Perm rewards
  /-- The bytes of the payees ascend. -/
  ascending : payments.Pairwise fun p q => Identity.utf8 p.payee ≤ Identity.utf8 q.payee
  /-- Each payee is paid in the order of the rewards. -/
  stable : ∀ payee, amountsOf payee (payments.map PaymentRecord.reward) = amountsOf payee rewards
  /-- Every payment bears the stamp. -/
  stamped : ∀ p ∈ payments, IsStamped core program cycle duration p

/-- The payments to one payee, out of rewards with a stamp. -/
theorem filter_payee_stamped (payee : String) (rewards : List (String × Float)) :
    (rewards.map (stamped core program cycle duration)).filter (fun p => p.payee = payee) =
      (amountsOf payee rewards).map
        fun amount => stamped core program cycle duration (payee, amount) := by
  rw [List.filter_map, amountsOf, List.map_map]
  refine List.map_congr_left fun reward hreward => ?_
  have hpayee := (List.mem_filter.mp hreward).2
  obtain rfl : reward.1 = payee := of_decide_eq_true hpayee
  rfl

/-- What is paid to one payee, in order. -/
theorem amountsOf_map_reward (payee : String) (payments : List PaymentRecord) :
    amountsOf payee (payments.map PaymentRecord.reward) =
      (payments.filter fun p => p.payee = payee).map (·.amount) := by
  rw [amountsOf, List.filter_map, List.map_map]
  rfl

theorem payee_le_trans (a b c : PaymentRecord) (hab : decide (a.payee ≤ b.payee) = true)
    (hbc : decide (b.payee ≤ c.payee) = true) : decide (a.payee ≤ c.payee) = true :=
  decide_eq_true (le_trans (of_decide_eq_true hab) (of_decide_eq_true hbc))

theorem payee_le_total (a b : PaymentRecord) :
    (decide (a.payee ≤ b.payee) || decide (b.payee ≤ a.payee)) = true := by
  simpa using le_total a.payee b.payee

/-- Sorting by payee leaves the payments to one payee in their order. -/
theorem filter_payee_mergeSort (payee : String) (payments : List PaymentRecord) :
    (payments.mergeSort fun a b => a.payee ≤ b.payee).filter (fun p => p.payee = payee) =
      payments.filter fun p => p.payee = payee := by
  refine filter_mergeSort payee_le_trans payee_le_total (fun a b ha hb => ?_) payments
  rw [of_decide_eq_true ha, of_decide_eq_true hb]
  exact decide_eq_true le_rfl

/-- **The payments of some rewards are these with a stamp, sorted by payee.** -/
theorem normalizes_iff {payments : List PaymentRecord} :
    Normalizes core program cycle duration rewards payments ↔
      payments = (rewards.map (stamped core program cycle duration)).mergeSort
        (fun a b => a.payee ≤ b.payee) := by
  constructor
  · intro h
    have hstamped : payments =
        (payments.map PaymentRecord.reward).map (stamped core program cycle duration) := by
      rw [List.map_map]
      conv_lhs => rw [← List.map_id payments]
      exact List.map_congr_left fun p hp => (h.stamped p hp).eq_stamped
    have hascending : payments.Pairwise fun p q => decide (p.payee ≤ q.payee) = true :=
      h.ascending.imp fun hle => decide_eq_true (Identity.utf8_le_iff.mp hle)
    refine eq_of_ties (fun a b => a.payee ≤ b.payee) (fun r p => p.payee = r.payee)
      (fun a => decide_eq_true (le_refl a.payee)) (fun a => decide_eq_true (Eq.refl a.payee))
      (fun a b hab hba => ?_) hascending (List.pairwise_mergeSort payee_le_trans payee_le_total _)
      fun r => ?_
    · exact decide_eq_true (le_antisymm (of_decide_eq_true hba) (of_decide_eq_true hab))
    · rw [filter_payee_mergeSort, filter_payee_stamped, ← h.stable, ← filter_payee_stamped,
        ← hstamped]
  · rintro rfl
    refine ⟨?_, ?_, fun payee => ?_, fun p hp => ?_⟩
    · refine ((List.mergeSort_perm _ _).map _).trans (List.Perm.of_eq ?_)
      rw [List.map_map]
      exact List.map_id _
    · refine (List.pairwise_mergeSort payee_le_trans payee_le_total _).imp fun h => ?_
      exact Identity.utf8_le_iff.mpr (of_decide_eq_true h)
    · rw [amountsOf_map_reward, filter_payee_mergeSort, filter_payee_stamped, List.map_map]
      exact List.map_id _
    · obtain ⟨reward, -, rfl⟩ := List.mem_map.mp (List.mem_mergeSort.mp hp)
      exact isStamped_stamped reward

/--
**Normalization loses and alters nothing.**  The payments of a table that can be read are made
exactly if every amount in it is finite and not below zero.  There is then one for each row:
the bytes of the payees ascend, the rows of one payee stay in their order, and each payment is
of the amount of its row and bears the stamp of the cycle.  Otherwise the first row, in the
order of the rows, whose amount cannot be paid is reported.
-/
theorem normalizes_or_reports_first {table : ResultTable} (hshape : table.IsWellFormed)
    (hlists : table.ListsRewards) (core : CoreParameters) (program : String) (cycle : Block)
    (duration : UInt64) :
    (table.rows.map ResultTable.rewardOf).length = table.rowCount ∧
    ((∃ payments, paymentsOf table core program cycle duration = .ok payments) ↔
      ∀ r ∈ table.rows.map ResultTable.rewardOf, r.2.isFinite = true ∧ ¬ r.2 < 0.0) ∧
    (∀ payments, paymentsOf table core program cycle duration = .ok payments ↔
      (∀ r ∈ table.rows.map ResultTable.rewardOf, r.2.isFinite = true ∧ ¬ r.2 < 0.0) ∧
      Normalizes core program cycle duration (table.rows.map ResultTable.rewardOf) payments) ∧
    (∀ problem, paymentsOf table core program cycle duration = .error problem ↔
      ∃ before payee amount after,
        table.rows.map ResultTable.rewardOf = before ++ (payee, amount) :: after ∧
        (∀ r ∈ before, r.2.isFinite = true ∧ ¬ r.2 < 0.0) ∧
        ¬ (amount.isFinite = true ∧ ¬ amount < 0.0) ∧
        problem = .execution "normalizing payments"
          (.told ("invalid amount " ++ Typed.floatText amount ++ " for payee " ++ payee))) := by
  have hrewards := (ResultTable.rewards_eq_ok_iff hshape).mpr ⟨hlists, rfl⟩
  refine ⟨?_, ⟨?_, fun hpayable => ?_⟩, fun payments => ?_,
    fun problem => paymentsOf_eq_error_iff hrewards⟩
  · rw [List.length_map, ResultTable.length_rows hshape hlists]
  · rintro ⟨payments, hpayments⟩
    exact ((paymentsOf_eq_ok_iff_sorted hrewards).mp hpayments).1
  · exact ⟨_, (paymentsOf_eq_ok_iff_sorted hrewards).mpr ⟨hpayable, rfl⟩⟩
  · rw [paymentsOf_eq_ok_iff_sorted hrewards, normalizes_iff]
    rfl

/-- Batches that share a payee, and batches with two amounts that cannot be paid. -/
theorem normalizes_or_reports_first_batches :
    let fields : List (String × ColumnType) := [("payee", .utf8), ("amount", .float64)]
    let core : CoreParameters :=
      ⟨Dictionary.empty.insert "safe_owner" "/data/safes", 100, 0, 200,
        "0x0000000000000000000000000000000000000001"⟩
    let paid : ResultTable :=
      ⟨fields, [⟨[[.text "0xb", .text "0xa"], [.double 2.0, .double (-0.0)]]⟩,
        ⟨[[.text "0xb"], [.double 1.0]]⟩]⟩
    let refused : ResultTable :=
      ⟨fields, [⟨[[.text "0xc", .text "0xb"], [.double 1.0, .double (-1.0)]]⟩,
        ⟨[[.text "0xa"], [.double (0.0 / 0.0)]]⟩]⟩
    let record : String → Float → PaymentRecord := fun payee amount =>
      ⟨payee, amount, "0x0000000000000000000000000000000000000001", "0xprogram", 200, 200,
        18446744073709551615⟩
    paid.rowCount = 3 ∧
    paymentsOf paid core "0xprogram" 200 18446744073709551600 =
      .ok [record "0xa" (-0.0), record "0xb" 2.0, record "0xb" 1.0] ∧
    paymentsOf refused core "0xprogram" 200 50 =
      .error (.execution "normalizing payments" (.told "invalid amount -1 for payee 0xb")) := by
  intro fields core paid refused record
  obtain ⟨hlength, -, hpayments, -⟩ := normalizes_or_reports_first
    (show paid.IsWellFormed by decide +kernel) (show paid.ListsRewards by decide +kernel)
    core "0xprogram" 200 18446744073709551600
  obtain ⟨-, -, -, hproblem⟩ := normalizes_or_reports_first
    (show refused.IsWellFormed by decide +kernel) (show refused.ListsRewards by decide +kernel)
    core "0xprogram" 200 50
  refine ⟨hlength.symm, (hpayments _).mpr ⟨?_, ?_⟩, (hproblem _).mpr ?_⟩
  · show ∀ r ∈ [("0xb", (2.0 : Float)), ("0xa", -0.0), ("0xb", 1.0)], _
    simp only [List.forall_mem_cons, List.not_mem_nil, false_implies, implies_true, and_true]
    exact ⟨⟨by decide +kernel, by decide +kernel⟩, ⟨by decide +kernel, by decide +kernel⟩,
      by decide +kernel, by decide +kernel⟩
  · refine ⟨List.Perm.swap _ _ _, by decide +kernel, fun payee => ?_, fun p hp => ?_⟩
    · show amountsOf payee [("0xa", -0.0), ("0xb", 2.0), ("0xb", 1.0)] =
        amountsOf payee [("0xb", 2.0), ("0xa", -0.0), ("0xb", 1.0)]
      by_cases ha : "0xa" = payee
      · subst ha
        simp [amountsOf]
      · simp [amountsOf, List.filter_cons, ha]
    · obtain ⟨payee, amount, rfl⟩ : ∃ payee amount, p = record payee amount := by
        simp only [List.mem_cons, List.not_mem_nil, or_false] at hp
        rcases hp with rfl | rfl | rfl <;> exact ⟨_, _, rfl⟩
      exact ⟨rfl, rfl, rfl, rfl, rfl, show (200 : Block) ≤ 18446744073709551615 by decide +kernel⟩
  · refine ⟨[("0xc", 1.0)], "0xb", -1.0, [("0xa", 0.0 / 0.0)], rfl, ?_, ?_, by decide +kernel⟩
    · simp only [List.mem_singleton, forall_eq]
      exact ⟨by decide +kernel, by decide +kernel⟩
    · rintro ⟨-, hnegative⟩
      exact hnegative (by decide +kernel)

end Rewards
