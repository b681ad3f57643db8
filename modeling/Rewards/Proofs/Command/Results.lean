/-
What is left behind after payments have been computed.

Everything that can go wrong with parameters, rules, datasets, queries and amounts has gone
wrong before the first change to a file.  Then the table is complete: it has the payments that
were computed, one row for each payee, and every row can be proved.  Writing it may still fail,
but what it leaves then are new directories at most.  If it succeeds, the path that is shown
leads to the table, and the numbers that are shown are those of its rows.
-/
import Rewards.Proofs.Command
import Rewards.Proofs.Files.Writing
import Rewards.Proofs.Payment.Handoff

namespace Rewards

/-! ### The table in its file -/

namespace Handoff

variable {handoff : Handoff} {directory : String} {tree : FileTree}

theorem isName_fileName : Path.IsName fileName :=
  ⟨by decide, by decide, by decide, by decide⟩

/-- What writing a table can come to. -/
inductive Written (handoff : Handoff) (directory : String) (tree : FileTree) :
    Outcome Unit × FileTree → Prop
  /-- Nothing is written, and nothing that was there is different. -/
  | failed {problem : Problem} {after : FileTree} (h : tree.AddsDirectories after) :
      Written handoff directory tree (.error problem, after)
  /-- The table is a file at a place that was no directory. -/
  | written {made : FileTree} {place : Place} (hmade : tree.AddsDirectories made)
      (hplace : made.node? place ≠ some .directory)
      (h : (made.set place (.file (.table handoff.columns))).resolve (filePath directory) =
        .ok (place, .file (.table handoff.columns))) :
      Written handoff directory tree (.ok (), made.set place (.file (.table handoff.columns)))

theorem written_write (handoff : Handoff) (directory : String) (tree : FileTree) :
    Written handoff directory tree (handoff.write directory tree) := by
  have hadds := tree.addsDirectories_makeDirectories directory
  unfold write
  cases hmade : tree.makeDirectories directory with
  | mk outcome made =>
      rw [hmade] at hadds
      cases outcome with
      | error obstacle => exact .failed hadds
      | ok _ =>
          cases hwrite : made.writeFile directory fileName (.table handoff.columns) with
          | error obstacle =>
              simp only [hwrite]
              exact .failed hadds
          | ok after =>
              obtain ⟨place, hplace, rfl, hresolve⟩ :=
                FileTree.exists_place_of_writeFile isName_fileName hwrite
              simp only [hwrite]
              exact .written hadds hplace hresolve

end Handoff

namespace Command

variable {environment : Template.Environment} {tree : FileTree} {arguments : ParameterArguments}
  {directory : String} {loaded : Loaded} {computed : PaymentRun} {handoff : Handoff}

/-! ### The complete table -/

/-- A table has what has been computed, row by row, and proofs for all of it. -/
structure IsComplete (computed : PaymentRun) (handoff : Handoff) : Prop where
  /-- The rows hold the payments in the order in which they were computed. -/
  payments_eq : handoff.rows.map (·.payment) = computed.payments
  /-- Payees ascend in the order of their bytes. -/
  ascending : handoff.rows.Pairwise fun a b =>
    Identity.utf8 a.payment.payee < Identity.utf8 b.payment.payee
  /-- A row has the leaf of its payment. -/
  leaf_eq : ∀ row ∈ handoff.rows,
    ∃ d, PaymentTree.leaf sha256 row.payment = .ok d ∧ row.leaf = d.hex
  verified : ∀ row ∈ handoff.rows,
    PaymentTree.verify sha256 row.leaf row.proof handoff.root = true
  length_payments : computed.payments.length = handoff.rows.length
  uniquePayees_eq : computed.summary.uniquePayees = handoff.rows.length
  /-- The table has the fields of the rows in its columns, the leaf and the proof among them. -/
  holdRows : Handoff.HoldRows handoff.columns handoff.rows

/-- What is computed pays each payee once, and is what is handed off. -/
theorem paysOnce_of_compute (h : compute tree loaded = .ok (computed, handoff)) :
    ∃ rule tables, made loaded = .ok rule ∧
      PaysOnce rule.toScheme.core rule.toScheme.duration loaded.document.run tables computed ∧
      PaymentTree.handoff sha256 computed.payments = .ok handoff := by
  obtain ⟨created, hcreated, h⟩ := Outcome.bind_eq_ok.mp h
  obtain ⟨run, hrun, h⟩ := Outcome.bind_eq_ok.mp h
  obtain ⟨handedOff, hhandoff, h⟩ := Outcome.bind_eq_ok.mp h
  obtain ⟨rfl, rfl⟩ := Prod.mk.inj (Except.ok.inj h)
  obtain ⟨rule, hmade, rfl⟩ := made_of_create hcreated
  have hcomputed := Outcome.mapError_eq_ok.mp hrun
  rw [Scheme.toRule_eq_answering] at hcomputed
  obtain ⟨identity, tables, totals, -, hlast, htables, htotals, hpayable, rfl⟩ :=
    computePayments_eq_ok_iff.mp (Prod.ext hcomputed rfl)
  exact ⟨rule, tables, hmade, paysOnce_ofTotals hlast htables htotals hpayable,
    Outcome.mapError_eq_ok.mp hhandoff⟩

/-- **Whatever is computed is handed off completely.** -/
theorem isComplete_of_compute (h : compute tree loaded = .ok (computed, handoff)) :
    IsComplete computed handoff := by
  obtain ⟨rule, tables, -, hpays, hhandoff⟩ := paysOnce_of_compute h
  have hrows : handoff.rows.map (·.payment) = computed.payments := by
    rw [PaymentTree.eq_of_handoff sha256 hhandoff]
    show (PaymentTree.rowsOf sha256 computed.payments).map (·.payment) = _
    rw [PaymentTree.map_payment_rowsOf]
    exact PaymentTree.inOrder_of_ascending
      (hpays.ascending.imp fun hlt => Identity.utf8_lt_iff.mp hlt)
  have hlength : computed.payments.length = handoff.rows.length := by
    rw [← hrows, List.length_map]
  have haccounts : PaymentTree.Accounts sha256 computed.payments handoff := by
    rw [PaymentTree.eq_of_handoff sha256 hhandoff]
    exact PaymentTree.accounts_of_finite sha256 (PaymentTree.finite_of_handoff sha256 hhandoff)
  refine ⟨hrows, ?_, haccounts.leaf_eq, haccounts.verified, hlength,
    hpays.uniquePayees_eq.trans hlength, haccounts.holdRows⟩
  have hascending := hpays.ascending
  rwa [← hrows, List.pairwise_map] at hascending

/-! ### What paying comes to -/

/-- What paying can come to. -/
inductive Paid (environment : Template.Environment) (tree : FileTree)
    (arguments : ParameterArguments) (directory : String) : Effect → Prop
  /-- Nothing has been computed. -/
  | uncomputed {failure : Failure}
      (h : (load environment tree arguments >>= fun loaded => compute tree loaded) =
        .error failure) :
      Paid environment tree arguments directory (.failure [] failure tree)
  /-- What has been computed could not be written. -/
  | unwritten {loaded : Loaded} {computed : PaymentRun} {handoff : Handoff} {problem : Problem}
      {after : FileTree} (hload : load environment tree arguments = .ok loaded)
      (hcompute : compute tree loaded = .ok (computed, handoff))
      (h : handoff.write directory tree = (.error problem, after)) :
      Paid environment tree arguments directory
        (.failure []
          ((Failure.ofProblem problem).within ("Failed to write results to " ++ directory)) after)
  | written {loaded : Loaded} {computed : PaymentRun} {handoff : Handoff} {after : FileTree}
      (hload : load environment tree arguments = .ok loaded)
      (hcompute : compute tree loaded = .ok (computed, handoff))
      (h : handoff.write directory tree = (.ok (), after)) :
      Paid environment tree arguments directory
        (.success (runLines computed handoff (Handoff.filePath directory)) after)

/-- Paying comes to one of the three. -/
theorem paid_payOut (environment : Template.Environment) (tree : FileTree)
    (arguments : ParameterArguments) (directory : String) :
    Paid environment tree arguments directory (payOut environment tree arguments directory) := by
  cases hcomputed : (load environment tree arguments >>= fun loaded => compute tree loaded) with
  | error failure =>
      rw [payOut_of_error hcomputed]
      exact .uncomputed hcomputed
  | ok result =>
      obtain ⟨loaded, hload, hcompute⟩ := Outcome.bind_eq_ok.mp hcomputed
      obtain ⟨computed, handoff⟩ := result
      rw [payOut, hcomputed]
      cases hwritten : handoff.write directory tree with
      | mk outcome after =>
          simp only [hwritten]
          cases outcome with
          | error problem => exact .unwritten hload hcompute hwritten
          | ok _ => exact .written hload hcompute hwritten

/-- What is shown of the table that is left at a path. -/
structure Shows (output : List String) (handoff : Handoff) (path : String) : Prop where
  payments : "  Payments:        " ++ natText handoff.rows.length ∈ output
  uniquePayees : "  Unique payees:   " ++ natText handoff.rows.length ∈ output
  root : "  Root:            " ++ handoff.root ∈ output
  outputPath : "  Output:          " ++ path ∈ output
  report : ∃ report totals : Json, report.canonical ∈ output ∧
    report.member? "root" = some (.text handoff.root) ∧
    report.member? "output" = some (.text path) ∧
    report.member? "summary" = some totals ∧
    totals.member? "unique_payee" = some (.natural handoff.rows.length)

theorem IsComplete.shows (h : IsComplete computed handoff) (path : String) :
    Shows (runLines computed handoff path) handoff path := by
  refine ⟨?_, ?_, ?_, ?_, ?_⟩
  · rw [← h.length_payments]
    simp [runLines]
  · rw [← h.uniquePayees_eq]
    simp [runLines]
  · simp [runLines]
  · simp [runLines]
  · rw [← h.uniquePayees_eq]
    exact ⟨runJson computed handoff.root path, summaryJson computed.summary,
      canonical_mem_runLines _ _ _, rfl, rfl, rfl, rfl⟩

/--
**Paying leaves a complete table or nothing.**  Either nothing can be computed, and then the
files are as they were.  Or the table is complete when it is to be written: its columns hold the
rows, these are the payments that were computed, one for each payee and in order, and each can
be proved.  If it cannot be written, nothing that was there is different.  If nothing fails, the
path that is shown leads to the table, and the numbers and the root that are shown are its own.
-/
theorem writes_all_or_nothing (environment : Template.Environment) (tree : FileTree)
    (arguments : ParameterArguments) (directory : String) :
    let paid := (Command.run arguments directory).perform environment tree
    (∃ failure, (load environment tree arguments >>= fun loaded => compute tree loaded) =
        .error failure ∧ paid = .failure [] failure tree) ∨
    ∃ loaded computed handoff, load environment tree arguments = .ok loaded ∧
      compute tree loaded = .ok (computed, handoff) ∧ IsComplete computed handoff ∧
      Handoff.Written handoff directory tree ((handoff.write directory tree).1, paid.tree) ∧
      (paid.exitCode = 0 ↔ (handoff.write directory tree).1 = .ok ()) ∧
      (paid.exitCode = 0 →
        paid.tree.readTable? (Handoff.filePath directory) = some handoff.columns ∧
        paid.output = runLines computed handoff (Handoff.filePath directory) ∧
        Shows paid.output handoff (Handoff.filePath directory)) := by
  intro paid
  have hpaid : Paid environment tree arguments directory paid :=
    paid_payOut environment tree arguments directory
  clear_value paid
  cases hpaid with
  | uncomputed h => exact Or.inl ⟨_, h, rfl⟩
  | @unwritten loaded computed handoff problem after hload hcompute h =>
      have hwritten := handoff.written_write directory tree
      refine Or.inr ⟨loaded, computed, handoff, hload, hcompute, isComplete_of_compute hcompute,
        ?_, ?_, ?_⟩
      · rw [h] at hwritten ⊢
        exact hwritten
      · rw [h]
        simp [Effect.failure]
      · intro hpassed
        cases hpassed
  | @written loaded computed handoff after hload hcompute h =>
      have hcomplete := isComplete_of_compute hcompute
      have hwritten := handoff.written_write directory tree
      rw [h] at hwritten
      refine Or.inr ⟨loaded, computed, handoff, hload, hcompute, hcomplete, ?_, ?_, ?_⟩
      · rw [h]
        exact hwritten
      · rw [h]
        exact ⟨fun _ => rfl, fun _ => rfl⟩
      · intro _
        cases hwritten with
        | @written made place hmade hplace hresolve =>
            refine ⟨?_, rfl, hcomplete.shows _⟩
            show FileTree.readTable? (made.set place _) _ = _
            rw [FileTree.readTable?, hresolve]
            rfl

/-- One owner is paid, and the table that is left has one row, which is the owner's. -/
theorem writes_all_or_nothing_one_owner : ∃ computed handoff paid,
    (Command.run ownershipArguments "/out").perform .empty ownershipTree = paid ∧
    paid.exitCode = 0 ∧ IsComplete computed handoff ∧
    handoff.rows.map (·.payment) =
      [⟨"ann", 3.0, ownershipDocument.core.token, "0xp", 10, 10, 110⟩] ∧
    paid.tree.readTable? "/out/results.parquet" = some handoff.columns ∧
    Shows paid.output handoff "/out/results.parquet" := by
  have hpath : Handoff.filePath "/out" = "/out/results.parquet" := rfl
  obtain ⟨computed, handoff, after, hpaid, hpayments, -⟩ := compute_ownershipTree
  rcases writes_all_or_nothing .empty ownershipTree ownershipArguments "/out" with
    ⟨failure, -, hfailed⟩ | ⟨loaded, run, table, hload, hcompute, hcomplete, -, -, hleft⟩
  · have hexit := exitCode_run_ownershipTree
    rw [hfailed] at hexit
    cases hexit
  · obtain rfl := Except.ok.inj (hload.symm.trans load_ownershipTree)
    obtain ⟨rfl, rfl⟩ := Prod.mk.inj (Except.ok.inj (hcompute.symm.trans hpaid))
    obtain ⟨htable, -, hshows⟩ := hleft exitCode_run_ownershipTree
    rw [hpath] at htable hshows
    exact ⟨run, table, _, rfl, exitCode_run_ownershipTree, hcomplete,
      hcomplete.payments_eq.trans hpayments, htable, hshows⟩

end Command

end Rewards
