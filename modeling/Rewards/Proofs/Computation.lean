/-
What a rule pays for a selection of cycles.

Whatever tables a rule answers with in the cycles of the validity window, it answers with
no rewards in all others.  The answers are summed payee by payee, so each payee that
occurs in some cycle of the window ends up with one payment, and it bears the stamp of
the last cycle.  The other cycles can be left out without a difference.
-/
import Rewards.Computation
import Rewards.Proofs.Action
import Rewards.Proofs.Cycle
import Rewards.Proofs.Payment.Records
import Rewards.Proofs.Rule.Identity
import Rewards.Proofs.Table.Sum

namespace Rewards

/-! ### The selected cycles -/

instance (core : CoreParameters) (cycle : Block) : Decidable (core.InWindow cycle) :=
  inferInstanceAs (Decidable (_ ∧ _))

theorem CoreParameters.cycleRange?_eq_none {core : CoreParameters} {cycle : Block}
    (h : ¬ core.InWindow cycle) : core.cycleRange? cycle = none := by
  cases hrange : core.cycleRange? cycle with
  | none => rfl
  | some range => exact absurd (inWindow_of_cycleRange? hrange).2 h

/-- The last of the selected cycles is the one that is paid; cycles may have no length here. -/
theorem RunSelection.eq_paymentCycle_of_getLast? {selection : RunSelection} {length : UInt64}
    {last : Block} (h : (selection.paymentCycles length).getLast? = some last) :
    last = selection.paymentCycle := by
  rw [paymentCycles, List.getLast?_map, List.getLast?_reverse, List.head?_range] at h
  split_ifs at h
  · cases h
  · simpa using h.symm

/-! ### Rules by their answers -/

namespace Scheme

variable {σ : Type}

/-- The rule of a scheme with other answers for the cycles of the window. -/
def answering (s : Scheme) (digest : List UInt8 → Digest)
    (answers : Context σ → (cycle : Block) → BlockRange → (program : String) →
      Action σ ResultTable) : Rule σ :=
  { s.toRule digest with
    run := fun context cycle program =>
      match s.core.cycleRange? cycle with
      | none => return .noRewards
      | some range => answers context cycle range program }

/-- A scheme answers with the result of its query. -/
theorem toRule_eq_answering (s : Scheme) (digest : List UInt8 → Digest) :
    (s.toRule digest : Rule σ) = s.answering digest (fun context _ range _ => do
      let arguments ← Action.ofOutcome (s.arguments range)
      answer context (s.query context range) arguments) :=
  rfl

end Scheme

/-! ### One stamped payment for each payee -/

/-- The answers for those cycles that are in the window. -/
def windowed (core : CoreParameters) (cycles : List Block) (answers : List ResultTable) :
    List ResultTable :=
  ((cycles.zip answers).filter fun a => core.InWindow a.1).map (·.2)

/-- What is paid for a selection of cycles, given the answers for all of them. -/
structure PaysOnce (core : CoreParameters) (duration : UInt64) (selection : RunSelection)
    (answers : List ResultTable) (run : PaymentRun) : Prop where
  /-- The cycles are those of the selection. -/
  cycles_eq : run.cycles = selection.paymentCycles core.cycleLength
  /-- There are cycles, and the last one is the one that is paid. -/
  last : run.cycles.getLast? = some selection.paymentCycle
  /-- Payees ascend in the order of their bytes, so each of them is paid once. -/
  ascending : run.payments.Pairwise fun p q => Identity.utf8 p.payee < Identity.utf8 q.payee
  /-- They are those who occur in the answer for some cycle of the window. -/
  payees : ∀ payee, payee ∈ run.payments.map (·.payee) ↔
    ∃ table ∈ windowed core run.cycles answers, table.Pays payee
  payable : ∀ p ∈ run.payments, IsPayable p.amount
  token_eq : ∀ p ∈ run.payments, p.token = core.token
  programId_eq : ∀ p ∈ run.payments, p.programId = selection.programId
  cycle_eq : ∀ p ∈ run.payments,
    p.paymentCycle = selection.paymentCycle ∧ p.validFrom = selection.paymentCycle
  validTo_eq : ∀ p ∈ run.payments,
    p.validTo.toNat = min (selection.paymentCycle.toNat + duration.toNat) (2 ^ 64 - 1)
  uniquePayees_eq : run.summary.uniquePayees = run.payments.length
  /-- The answers for the cycles of the window alone lead to the same payments. -/
  windowOnly : (do
      let aggregated ← Scheme.aggregate (windowed core run.cycles answers)
      paymentsOf aggregated core selection.programId selection.paymentCycle duration) =
    .ok run.payments

section

variable {σ : Type} {s : Scheme} {digest : List UInt8 → Digest} {context : Context σ}
  {answers : Context σ → (cycle : Block) → BlockRange → (program : String) → Action σ ResultTable}
  {selection : RunSelection} {state after : σ} {tables : List ResultTable} {run : PaymentRun}

/-- The answers for the cycles of a selection. -/
def Scheme.answersTo (s : Scheme) (digest : List UInt8 → Digest)
    (answers : Context σ → (cycle : Block) → BlockRange → (program : String) →
      Action σ ResultTable) (context : Context σ) (selection : RunSelection) :
    Action σ (List ResultTable) :=
  (selection.paymentCycles s.core.cycleLength).mapM fun cycle =>
    (s.answering digest answers).run context cycle selection.programId

/-- Summing all answers is summing those for the cycles of the window. -/
theorem sumByPayee_windowed
    (h : (s.answersTo digest answers context selection).perform state = (.ok tables, after)) :
    sumByPayee (windowed s.core (selection.paymentCycles s.core.cycleLength) tables) =
      sumByPayee tables := by
  have hanswers := Action.forall₂_of_perform_mapM h
  have htables : ((selection.paymentCycles s.core.cycleLength).zip tables).map (·.2) = tables :=
    List.map_snd_zip (Nat.le_of_eq hanswers.length_eq.symm)
  have houtside : ∀ a ∈ (selection.paymentCycles s.core.cycleLength).zip tables,
      decide (s.core.InWindow a.1) = false → a.2 = .noRewards := by
    rintro ⟨cycle, table⟩ hmem hout
    obtain ⟨before, behind, hrun⟩ := (List.forall₂_iff_zip.mp hanswers).2 hmem
    have hnone := CoreParameters.cycleRange?_eq_none (of_decide_eq_false hout)
    simp only [Scheme.answering, hnone] at hrun
    cases hrun
    rfl
  rw [sumByPayee_eq, sumByPayee_eq, windowed, foldlM_addTable_filter houtside, htables]

/-- The payments of totals. -/
def PaymentRun.ofTotals (s : Scheme) (identity : RuleIdentity) (selection : RunSelection)
    (totals : Dictionary Float) : PaymentRun :=
  let payments := totals.entries.map
    (stamped s.core selection.programId selection.paymentCycle s.duration)
  ⟨s.name, identity, selection.paymentCycles s.core.cycleLength, payments, .ofPayments payments⟩

/-- Totals become payments exactly if all of them can be paid. -/
theorem paymentsOf_totals_eq_ok_iff {core : CoreParameters} {program : String} {cycle : Block}
    {duration : UInt64} {totals : Dictionary Float} {payments : List PaymentRecord} :
    paymentsOf (.ofRewards totals) core program cycle duration = .ok payments ↔
      (∀ e ∈ totals.entries, IsPayable e.2) ∧
        payments = totals.entries.map (stamped core program cycle duration) :=
  paymentsOf_eq_ok_iff (ResultTable.rewards_ofRewards totals) totals.ascending

/-- A computation step by step. -/
theorem computePayments_answering :
    computePayments (s.answering digest answers) context selection = (do
      let identity ← Action.ofOutcome (s.identity digest)
      match (selection.paymentCycles s.core.cycleLength).getLast? with
      | none => throw (noCycle selection)
      | some last =>
        let tables ← s.answersTo digest answers context selection
        let aggregated ← Action.ofOutcome (Scheme.aggregate tables)
        let payments ←
          Action.ofOutcome (paymentsOf aggregated s.core selection.programId last s.duration)
        return ⟨s.name, identity, selection.paymentCycles s.core.cycleLength, payments,
          .ofPayments payments⟩) :=
  rfl

/-- **What is computed are the payments of the totals of all answers.** -/
theorem computePayments_eq_ok_iff :
    (computePayments (s.answering digest answers) context selection).perform state =
        (.ok run, after) ↔
      ∃ identity tables totals, s.identity digest = .ok identity ∧
        (selection.paymentCycles s.core.cycleLength).getLast? = some selection.paymentCycle ∧
        (s.answersTo digest answers context selection).perform state = (.ok tables, after) ∧
        sumByPayee tables = .ok totals ∧ (∀ e ∈ totals.entries, IsPayable e.2) ∧
        run = .ofTotals s identity selection totals := by
  rw [computePayments_answering, Action.perform_bind_eq_ok]
  constructor
  · rintro ⟨identity, mid, hidentified, h⟩
    obtain ⟨hidentity, rfl⟩ := Action.perform_ofOutcome_eq_ok.mp hidentified
    cases hlast : (selection.paymentCycles s.core.cycleLength).getLast? with
    | none =>
        simp only [hlast] at h
        cases h
    | some last =>
        obtain rfl := RunSelection.eq_paymentCycle_of_getLast? hlast
        simp only [hlast] at h
        obtain ⟨tables, ran, htables, hran⟩ := Action.perform_bind_eq_ok.mp h
        obtain ⟨aggregated, summed, haggregate, hsummed⟩ := Action.perform_bind_eq_ok.mp hran
        obtain ⟨haggregated, hsame⟩ := Action.perform_ofOutcome_eq_ok.mp haggregate
        obtain ⟨payments, listed, hlist, hlisted⟩ := Action.perform_bind_eq_ok.mp hsummed
        obtain ⟨hpayments, hsame'⟩ := Action.perform_ofOutcome_eq_ok.mp hlist
        obtain ⟨totals, htotals, hrewards⟩ := Outcome.bind_eq_ok.mp haggregated
        obtain rfl := Except.ok.inj hrewards
        obtain ⟨hpayable, rfl⟩ := paymentsOf_totals_eq_ok_iff.mp hpayments
        subst hsame hsame'
        cases hlisted
        exact ⟨identity, tables, totals, hidentity, rfl, htables, htotals, hpayable, rfl⟩
  · rintro ⟨identity, tables, totals, hidentity, hlast, htables, htotals, hpayable, rfl⟩
    have haggregated : Scheme.aggregate tables = .ok (.ofRewards totals) :=
      Outcome.bind_eq_ok.mpr ⟨totals, htotals, rfl⟩
    refine ⟨identity, state, Action.perform_ofOutcome_eq_ok.mpr ⟨hidentity, rfl⟩, ?_⟩
    simp only [hlast]
    refine Action.perform_bind_eq_ok.mpr ⟨tables, after, htables, ?_⟩
    refine Action.perform_bind_eq_ok.mpr
      ⟨_, after, Action.perform_ofOutcome_eq_ok.mpr ⟨haggregated, rfl⟩, ?_⟩
    refine Action.perform_bind_eq_ok.mpr ⟨_, after, Action.perform_ofOutcome_eq_ok.mpr
      ⟨paymentsOf_totals_eq_ok_iff.mpr ⟨hpayable, rfl⟩, rfl⟩, rfl⟩

/-- Payments of totals, one for each payee. -/
theorem paysOnce_ofTotals {identity : RuleIdentity} {totals : Dictionary Float}
    (hlast : (selection.paymentCycles s.core.cycleLength).getLast? = some selection.paymentCycle)
    (htables : (s.answersTo digest answers context selection).perform state = (.ok tables, after))
    (htotals : sumByPayee tables = .ok totals) (hpayable : ∀ e ∈ totals.entries, IsPayable e.2) :
    PaysOnce s.core s.duration selection tables (.ofTotals s identity selection totals) := by
  have hwindowed := (sumByPayee_windowed htables).trans htotals
  have hascending : (PaymentRun.ofTotals s identity selection totals).payments.Pairwise
      fun p q => p.payee < q.payee :=
    List.pairwise_map.mpr totals.ascending
  have hkeys : (PaymentRun.ofTotals s identity selection totals).payments.map (·.payee) =
      totals.keys := by
    show (totals.entries.map _).map _ = _
    rw [List.map_map]
    rfl
  have hstamped : ∀ p ∈ (PaymentRun.ofTotals s identity selection totals).payments,
      ∃ e ∈ totals.entries,
        stamped s.core selection.programId selection.paymentCycle s.duration e = p :=
    fun p hp => List.mem_map.mp hp
  refine ⟨rfl, hlast, ?_, ?_, ?_, ?_, ?_, ?_, ?_, ?_, ?_⟩
  · exact hascending.imp fun h => Identity.utf8_lt_iff.mpr h
  · intro payee
    rw [hkeys, mem_keys_of_foldlM_addTable hwindowed]
    simp [Dictionary.keys, Dictionary.empty, PaymentRun.ofTotals]
  · intro p hp
    obtain ⟨e, he, rfl⟩ := hstamped p hp
    exact hpayable e he
  · intro p hp
    obtain ⟨e, -, rfl⟩ := hstamped p hp
    rfl
  · intro p hp
    obtain ⟨e, -, rfl⟩ := hstamped p hp
    rfl
  · intro p hp
    obtain ⟨e, -, rfl⟩ := hstamped p hp
    exact ⟨rfl, rfl⟩
  · intro p hp
    obtain ⟨e, -, rfl⟩ := hstamped p hp
    exact toNat_claimableUntil _ _
  · exact uniquePayees_of_ascending hascending
  · have haggregated : Scheme.aggregate (windowed s.core
        (selection.paymentCycles s.core.cycleLength) tables) = .ok (.ofRewards totals) :=
      Outcome.bind_eq_ok.mpr ⟨totals, hwindowed, rfl⟩
    show (Scheme.aggregate (windowed s.core (selection.paymentCycles s.core.cycleLength) tables) >>=
      _) = _
    rw [haggregated, Outcome.ok_bind]
    exact paymentsOf_totals_eq_ok_iff.mpr ⟨hpayable, rfl⟩

end

/--
**Each payee of the selected cycles is paid once.**  For every rule of this library, every
selection and every way in which the cycles of the window are answered: if the payments
can be computed, there is one for each payee that occurs in an answer, in order and with
the stamp of the last cycle, and cycles outside the window make no difference.
-/
theorem paysOnce_of_computePayments {σ : Type} (rule : BuiltIn) (digest : List UInt8 → Digest)
    (answers : Context σ → (cycle : Block) → BlockRange → (program : String) → Action σ ResultTable)
    {context : Context σ} {selection : RunSelection} {state after : σ} {run : PaymentRun}
    (h : (computePayments (rule.toScheme.answering digest answers) context selection).perform state =
      (.ok run, after)) :
    ∃ tables,
      (rule.toScheme.answersTo digest answers context selection).perform state =
        (.ok tables, after) ∧
      PaysOnce rule.toScheme.core rule.toScheme.duration selection tables run := by
  obtain ⟨identity, tables, totals, -, hlast, htables, htotals, hpayable, rfl⟩ :=
    computePayments_eq_ok_iff.mp h
  exact ⟨tables, htables, paysOnce_ofTotals hlast htables htotals hpayable⟩

/-! ### A selection that ends behind the window -/

/-- A rule for the blocks up to 200, in cycles of 100. -/
def hundredBlockRule : SafeOwnership :=
  ⟨⟨Dictionary.ofList [("safe_owner", "/exports")], 100, 0, 200, "0x0"⟩, ⟨1.5, 8.0, 50⟩⟩

/-- Tables of rewards for two cycles: in the first one a payee occurs twice. -/
def scriptedAnswer (cycle : Block) : ResultTable :=
  if cycle = 100 then .listing [("bob", 1.5), ("ann", 2.5), ("bob", 4.0)]
  else .listing [("cat", 0.5), ("ann", 1.0)]

/-- Four cycles are selected, the last of which ends behind the window and the first at block zero. -/
def fourCycles : RunSelection := ⟨300, "0xprogram", 9⟩

/-- What the three payees of the two cycles in the window are owed. -/
def scriptedTotals : Dictionary Float :=
  Dictionary.ofList [("ann", 3.5), ("bob", 5.5), ("cat", 0.5)]

/-- Three payees are paid for the two cycles of the window, each of them once. -/
theorem paysOnce_of_computePayments_scripted :
    ∃ run tables, (computePayments ((BuiltIn.safeOwnership hundredBlockRule).toScheme.answering sha256
        fun _ cycle _ _ => pure (scriptedAnswer cycle))
        (⟨fun _ _ _ => pure [], fun _ => none⟩ : Context Unit) fourCycles).perform () = (.ok run, ()) ∧
      PaysOnce hundredBlockRule.core 50 fourCycles tables run ∧
      run.payments.map (·.payee) = ["ann", "bob", "cat"] := by
  have hbuilt : (BuiltIn.safeOwnership hundredBlockRule).IsBuilt := by
    have hmade : SafeOwnership.ofParameters hundredBlockRule.core
        (Dictionary.ofList [("reward_per_safe", .real 1.5), ("max_rewards", .real 8.0),
          ("duration", .natural 50)]) = .ok hundredBlockRule := by decide +kernel
    exact .safeOwnership hmade
  have hlast : (fourCycles.paymentCycles 100).getLast? = some 300 := by decide +kernel
  have htables : ((BuiltIn.safeOwnership hundredBlockRule).toScheme.answersTo sha256
      (fun _ cycle _ _ => pure (scriptedAnswer cycle))
      (⟨fun _ _ _ => pure [], fun _ => none⟩ : Context Unit) fourCycles).perform () =
        (.ok [.noRewards, scriptedAnswer 100, scriptedAnswer 200, .noRewards], ()) := by
    decide +kernel
  have htotals : sumByPayee [.noRewards, scriptedAnswer 100, scriptedAnswer 200, .noRewards] =
      .ok scriptedTotals := by decide +kernel
  have hpayable : ∀ e ∈ scriptedTotals.entries, IsPayable e.2 := by
    unfold IsPayable
    decide +kernel
  have hcomputed := computePayments_eq_ok_iff.mpr
    ⟨_, _, _, hbuilt.identity_eq sha256, hlast, htables, htotals, hpayable, rfl⟩
  obtain ⟨tables, -, hpays⟩ := paysOnce_of_computePayments (.safeOwnership hundredBlockRule) sha256
    (fun _ cycle _ _ => pure (scriptedAnswer cycle)) hcomputed
  exact ⟨_, tables, hcomputed, hpays, by decide +kernel⟩

end Rewards
