/-
Checking parameters and paying with them.

Both commands load the parameters and make the rule, and neither changes a file before that
is done.  What is checked stops there and shows the identity, which every rule that has been
made has; what is paid goes on with the same rule, and computes the identity once more.  So a
check fails exactly if paying would fail before anything is computed, and a rule that pays
is the one that was checked.
-/
import Rewards.Command
import Rewards.Proofs.Computation
import Rewards.Proofs.Files.Tables
import Rewards.Proofs.Parameters.Unset
import Rewards.Proofs.Rule.Registry

namespace Rewards

/-- The identity of a rule, which it has if it has been made. -/
def BuiltIn.identity (digest : List UInt8 → Digest) (rule : BuiltIn) : RuleIdentity :=
  Identity.ofTexts digest rule.toScheme.core.toJson rule.userDefined

/-- The document that some characters spell out, if there is no reference in them. -/
theorem ParameterDocument.ofText_ofList {environment : Template.Environment} {cs : List Char}
    {document : ParameterDocument} (hnames : Template.names cs = [])
    (h : Yaml.readChars ParameterDocument.read cs = .ok document) :
    ofText environment (String.ofList cs) = .ok document := by
  rw [ofText,
    Template.substitute_of_names_eq_nil (by rw [String.toList_ofList, hnames]), Outcome.ok_bind,
    Yaml.read, String.toList_ofList, h]
  rfl

namespace Command

/-! ### What both commands begin with -/

/-- A rule that an argument and a document name is the one that each of them names. -/
theorem eq_of_resolveRule {argument document : Option String} {rule : String}
    (h : resolveRule argument document = .ok rule) :
    (∀ named ∈ argument, named = rule) ∧ (∀ named ∈ document, named = rule) := by
  unfold resolveRule at h
  split at h
  · split_ifs at h with hsame
    obtain rfl := Except.ok.inj h
    simp [hsame]
  · obtain rfl := Except.ok.inj h
    simp
  · obtain rfl := Except.ok.inj h
    simp
  · cases h

/-- The rule for some parameters. -/
def made (loaded : Loaded) : Outcome BuiltIn :=
  BuiltIn.make loaded.rule loaded.document.core loaded.document.userDefined

theorem create_eq {σ : Type} (loaded : Loaded) : (create loaded : Except Failure (Rule σ)) =
    orFailure ((made loaded).map fun rule => rule.toScheme.toRule sha256) :=
  congrArg orFailure (Registry.create_builtIn _ _ _)

theorem made_of_create {σ : Type} {loaded : Loaded} {created : Rule σ}
    (h : create loaded = .ok created) :
    ∃ rule, made loaded = .ok rule ∧ created = rule.toScheme.toRule sha256 := by
  rw [create_eq] at h
  cases hmade : made loaded with
  | error problem =>
      rw [hmade] at h
      cases h
  | ok rule =>
      rw [hmade] at h
      exact ⟨rule, rfl, (Except.ok.inj h).symm⟩

variable {environment : Template.Environment} {tree : FileTree} {arguments : ParameterArguments}
  {directory : String} {loaded : Loaded} {rule : BuiltIn} {failure : Failure} {handoff : Handoff}

/-- **Parameters are loaded if their document is found, read, valid and for one rule.** -/
theorem load_eq_ok_iff : load environment tree arguments = .ok loaded ↔
    parametersPath arguments = .ok loaded.path ∧
    ParameterDocument.ofFile environment tree loaded.path = .ok loaded.document ∧
    loaded.document.validate = .ok () ∧
    resolveRule arguments.rule loaded.document.rule = .ok loaded.rule := by
  unfold load orFailure orFailureWithin
  simp only [Outcome.bind_eq_ok, Outcome.mapError_eq_ok]
  constructor
  · rintro ⟨path, hpath, document, hdocument, ⟨⟩, hvalid, rule, hrule, h⟩
    obtain rfl := Except.ok.inj h
    exact ⟨hpath, hdocument, hvalid, hrule⟩
  · rintro ⟨hpath, hdocument, hvalid, hrule⟩
    exact ⟨_, hpath, _, hdocument, (), hvalid, _, hrule, rfl⟩

/-! ### What is shown of a rule -/

/-- What checking shows of a rule: its name and the three hashes of its identity. -/
structure ShowsChecked (output : List String) (rule : String) (identity : RuleIdentity) : Prop where
  ruleName : "Rule:              OK (" ++ rule ++ ")" ∈ output
  coreHash : "  Core hash:         " ++ identity.coreHash ∈ output
  userDefinedHash : "  User-defined hash: " ++ identity.userDefinedHash ∈ output
  ruleHash : "  Rule hash:         " ++ identity.ruleHash ∈ output

/-- What paying shows of a rule: its name and its hash, and in a report all three hashes. -/
structure ShowsPaid (output : List String) (rule : String) (identity : RuleIdentity) : Prop where
  ruleName : "Rule '" ++ rule ++ "' completed successfully." ∈ output
  ruleHash : "  Rule hash:       " ++ identity.ruleHash ∈ output
  report : ∃ report hashes : Json, report.canonical ∈ output ∧
    report.member? "rule" = some (.text rule) ∧
    report.member? "identity" = some hashes ∧
    hashes.member? "core_hash" = some (.text identity.coreHash) ∧
    hashes.member? "user_defined_hash" = some (.text identity.userDefinedHash) ∧
    hashes.member? "rule_hash" = some (.text identity.ruleHash)

/-! ### Checking -/

/-- The lines that are shown of parameters and a rule that are good. -/
def checkLines (loaded : Loaded) (rule : String) (identity : RuleIdentity) : List String :=
  [parametersLine loaded, createdLine rule] ++ identityLines identity ++ ["", "All checks passed."]

theorem showsChecked_checkLines (loaded : Loaded) (rule : String) (identity : RuleIdentity) :
    ShowsChecked (checkLines loaded rule identity) rule identity where
  ruleName := .tail _ (.head _)
  coreHash := .tail _ (.tail _ (.head _))
  userDefinedHash := .tail _ (.tail _ (.tail _ (.head _)))
  ruleHash := .tail _ (.tail _ (.tail _ (.tail _ (.head _))))

/-- What checking can come to. -/
inductive Checked (environment : Template.Environment) (tree : FileTree)
    (arguments : ParameterArguments) : Effect → Prop
  | unloaded {failure : Failure} (h : load environment tree arguments = .error failure) :
      Checked environment tree arguments (.failure [] failure tree)
  | unmade {loaded : Loaded} {problem : Problem}
      (hload : load environment tree arguments = .ok loaded) (h : made loaded = .error problem) :
      Checked environment tree arguments
        (.failure [parametersLine loaded] (.ofProblem problem) tree)
  | passed {loaded : Loaded} {rule : BuiltIn}
      (hload : load environment tree arguments = .ok loaded) (h : made loaded = .ok rule) :
      Checked environment tree arguments
        (.success (checkLines loaded rule.toScheme.name (rule.identity sha256)) tree)

theorem perform_identity {σ : Type} {digest : List UInt8 → Digest} (h : rule.IsBuilt) (state : σ) :
    (rule.toScheme.toRule digest : Rule σ).identity.perform state =
      (.ok (rule.identity digest), state) := by
  show (Action.ofOutcome (rule.toScheme.identity digest)).perform state = _
  rw [h.identity_eq digest]
  rfl

/-- Checking comes to one of the three: a rule that has been made has an identity. -/
theorem checked (environment : Template.Environment) (tree : FileTree)
    (arguments : ParameterArguments) :
    Checked environment tree arguments (checkParameters environment tree arguments) := by
  unfold checkParameters
  cases hload : load environment tree arguments with
  | error failure => exact .unloaded hload
  | ok loaded =>
      simp only [create_eq]
      cases hmade : made loaded with
      | error problem => exact .unmade hload hmade
      | ok rule =>
          simp only [Except.map, orFailure, Except.mapError,
            perform_identity (BuiltIn.isBuilt_of_make hmade).1]
          exact .passed hload hmade

/-- Where there is a rule, it is shown. -/
theorem Checked.eq_of_made {effect : Effect} (h : Checked environment tree arguments effect)
    (hload : load environment tree arguments = .ok loaded) (hmade : made loaded = .ok rule) :
    effect = .success (checkLines loaded rule.toScheme.name (rule.identity sha256)) tree := by
  cases h with
  | unloaded h =>
      rw [hload] at h
      cases h
  | unmade hload' h =>
      obtain rfl := Except.ok.inj (hload'.symm.trans hload)
      rw [hmade] at h
      cases h
  | passed hload' h =>
      obtain rfl := Except.ok.inj (hload'.symm.trans hload)
      obtain rfl := Except.ok.inj (h.symm.trans hmade)
      rfl

/-- Only where there is one, nothing fails. -/
theorem Checked.exists_of_passed {effect : Effect} (h : Checked environment tree arguments effect)
    (hpassed : effect.exitCode = 0) :
    ∃ loaded rule, load environment tree arguments = .ok loaded ∧ made loaded = .ok rule ∧
      effect = .success (checkLines loaded rule.toScheme.name (rule.identity sha256)) tree := by
  cases h with
  | unloaded => cases hpassed
  | unmade => cases hpassed
  | passed hload h => exact ⟨_, _, hload, h, rfl⟩

/-! ### Paying -/

theorem compute_of_unmade {problem : Problem} (h : made loaded = .error problem) :
    compute tree loaded = .error (.ofProblem problem) := by
  rw [compute, create_eq, h]
  rfl

/-- What is computed bears the name of the rule and its identity. -/
theorem rule_of_computePayments {σ : Type} {context : Context σ} {selection : RunSelection}
    {state : σ} {run : PaymentRun} (hbuilt : rule.IsBuilt)
    (h : ((computePayments (rule.toScheme.toRule sha256) context selection).perform state).1 =
      .ok run) : run.rule = rule.toScheme.name ∧ run.identity = rule.identity sha256 := by
  rw [Scheme.toRule_eq_answering] at h
  obtain ⟨identity, tables, totals, hidentity, -, -, -, -, rfl⟩ :=
    computePayments_eq_ok_iff.mp (Prod.ext h rfl)
  rw [hbuilt.identity_eq sha256] at hidentity
  exact ⟨rfl, (Except.ok.inj hidentity).symm⟩

/-- Payments are computed with the rule that has been made. -/
theorem made_of_compute {computed : PaymentRun} {handoff : Handoff}
    (h : compute tree loaded = .ok (computed, handoff)) :
    ∃ rule, made loaded = .ok rule ∧ computed.rule = rule.toScheme.name ∧
      computed.identity = rule.identity sha256 := by
  obtain ⟨created, hcreated, h⟩ := Outcome.bind_eq_ok.mp h
  obtain ⟨run, hrun, h⟩ := Outcome.bind_eq_ok.mp h
  obtain ⟨_, -, h⟩ := Outcome.bind_eq_ok.mp h
  obtain ⟨rfl, -⟩ := Prod.mk.inj (Except.ok.inj h)
  obtain ⟨rule, hmade, rfl⟩ := made_of_create hcreated
  exact ⟨rule, hmade, rule_of_computePayments (BuiltIn.isBuilt_of_make hmade).1
    (Outcome.mapError_eq_ok.mp hrun)⟩

/-- The report is the last line. -/
theorem canonical_mem_runLines (computed : PaymentRun) (handoff : Handoff) (path : String) :
    (runJson computed handoff.root path).canonical ∈ runLines computed handoff path := by
  unfold runLines
  exact List.mem_of_getLast? rfl

theorem showsPaid_runLines (computed : PaymentRun) (handoff : Handoff) (path : String) :
    ShowsPaid (runLines computed handoff path) computed.rule computed.identity where
  ruleName := .head _
  ruleHash := .tail _ (.head _)
  report :=
    ⟨runJson computed handoff.root path, computed.identity.toJson, canonical_mem_runLines _ _ _,
      rfl, rfl, rfl, rfl, rfl⟩

/-- Paying fails with what the computation fails with, and writes nothing. -/
theorem payOut_of_error (h : (load environment tree arguments >>= fun loaded =>
    compute tree loaded) = .error failure) :
    payOut environment tree arguments directory = .failure [] failure tree := by
  rw [payOut, h]

/-- What has been computed and written is shown. -/
theorem payOut_of_written {computed : PaymentRun} {after : FileTree}
    (hload : load environment tree arguments = .ok loaded)
    (hcompute : compute tree loaded = .ok (computed, handoff))
    (h : handoff.write directory tree = (.ok (), after)) :
    payOut environment tree arguments directory =
      .success (runLines computed handoff (Handoff.filePath directory)) after := by
  have hcomputed : (load environment tree arguments >>= fun loaded => compute tree loaded) =
      .ok (computed, handoff) := Outcome.bind_eq_ok.mpr ⟨loaded, hload, hcompute⟩
  rw [payOut, hcomputed]
  simp only [h]

/-- What has been paid was computed and written. -/
theorem exists_of_payOut (h : (payOut environment tree arguments directory).exitCode = 0) :
    ∃ loaded computed handoff, load environment tree arguments = .ok loaded ∧
      compute tree loaded = .ok (computed, handoff) ∧
      (payOut environment tree arguments directory).output =
        runLines computed handoff (Handoff.filePath directory) := by
  cases hcomputed : (load environment tree arguments >>= fun loaded => compute tree loaded) with
  | error failure =>
      rw [payOut_of_error hcomputed] at h
      cases h
  | ok result =>
      obtain ⟨loaded, hload, hcompute⟩ := Outcome.bind_eq_ok.mp hcomputed
      obtain ⟨computed, handoff⟩ := result
      refine ⟨loaded, computed, handoff, hload, hcompute, ?_⟩
      rw [payOut, hcomputed] at h ⊢
      cases hwritten : handoff.write directory tree with
      | mk outcome after =>
          simp only [hwritten] at h ⊢
          cases outcome with
          | error problem => cases h
          | ok _ => rfl

/-- **Paying with parameters that fail the check fails like it**, and writes nothing. -/
theorem Checked.payOut_eq {effect : Effect} (h : Checked environment tree arguments effect)
    (hfailed : effect.exitCode ≠ 0) :
    (payOut environment tree arguments directory).exitCode = effect.exitCode ∧
      (payOut environment tree arguments directory).errors = effect.errors ∧
      (payOut environment tree arguments directory).tree = tree := by
  cases h with
  | unloaded h =>
      rw [payOut_of_error (by rw [h]; rfl)]
      exact ⟨rfl, rfl, rfl⟩
  | unmade hload h =>
      rw [payOut_of_error (by rw [hload]; exact compute_of_unmade h)]
      exact ⟨rfl, rfl, rfl⟩
  | passed => exact absurd rfl hfailed

/--
**What is checked is what pays.**  If checking some parameters fails, paying with them fails
with the same error and leaves the files as they were.  If paying succeeds, so does checking
on the files as they were before, and it shows the rule and the identity that were computed
with: the name of the rule and the three hashes are on the lines of the check, and in the report
that is shown of the payments.  Checking succeeds where parameters can be loaded and a rule can
be made of them.  Then it shows this rule, whatever states that is to act on; it is the one that
the arguments name and the one that the document names, if they name any.
-/
theorem check_agrees_with_run (environment : Template.Environment) (tree : FileTree)
    (arguments : ParameterArguments) (directory : String) :
    let checked := (Command.check arguments).perform environment tree
    let paid := (Command.run arguments directory).perform environment tree
    (checked.exitCode ≠ 0 →
      paid.exitCode = checked.exitCode ∧ paid.errors = checked.errors ∧ paid.tree = tree) ∧
    (paid.exitCode = 0 → ∃ loaded computed handoff,
      load environment tree arguments = .ok loaded ∧
      compute tree loaded = .ok (computed, handoff) ∧
      paid.output = runLines computed handoff (Handoff.filePath directory) ∧
      checked = .success (checkLines loaded computed.rule computed.identity) tree ∧
      ShowsPaid paid.output computed.rule computed.identity ∧
      ShowsChecked checked.output computed.rule computed.identity) ∧
    (∀ (loaded : Loaded) (rule : Rule Unit), load environment tree arguments = .ok loaded →
      create loaded = .ok rule → checked.exitCode = 0) ∧
    (checked.exitCode = 0 → ∃ (loaded : Loaded) (rule : BuiltIn),
      load environment tree arguments = .ok loaded ∧
      (∀ σ, (create loaded : Except Failure (Rule σ)) = .ok (rule.toScheme.toRule sha256)) ∧
      checked = .success (checkLines loaded rule.toScheme.name (rule.identity sha256)) tree ∧
      ShowsChecked checked.output rule.toScheme.name (rule.identity sha256) ∧
      (∀ named ∈ arguments.rule, named = rule.toScheme.name) ∧
      (∀ named ∈ loaded.document.rule, named = rule.toScheme.name)) := by
  intro checked paid
  have hchecked : Checked environment tree arguments checked :=
    Command.checked environment tree arguments
  refine ⟨hchecked.payOut_eq, ?_, ?_, ?_⟩
  · intro hpaid
    obtain ⟨loaded, computed, handoff, hload, hcompute, houtput⟩ := exists_of_payOut hpaid
    obtain ⟨rule, hmade, hrule, hidentity⟩ := made_of_compute hcompute
    have hshown : checked = .success (checkLines loaded computed.rule computed.identity) tree := by
      rw [hrule, hidentity]
      exact hchecked.eq_of_made hload hmade
    refine ⟨loaded, computed, handoff, hload, hcompute, houtput, hshown, ?_, ?_⟩
    · show ShowsPaid (payOut environment tree arguments directory).output _ _
      rw [houtput]
      exact showsPaid_runLines computed handoff _
    · rw [hshown]
      exact showsChecked_checkLines loaded _ _
  · intro loaded created hload hcreated
    obtain ⟨rule, hmade, -⟩ := made_of_create hcreated
    rw [hchecked.eq_of_made hload hmade]
    rfl
  · intro hpassed
    obtain ⟨loaded, rule, hload, hmade, hshown⟩ := hchecked.exists_of_passed hpassed
    obtain ⟨hbuilt, hname⟩ := BuiltIn.isBuilt_of_make hmade
    obtain ⟨hargument, hdocument⟩ := eq_of_resolveRule (load_eq_ok_iff.mp hload).2.2.2
    refine ⟨loaded, rule, hload, fun σ => ?_, hshown, ?_, ?_, ?_⟩
    · rw [create_eq, hmade]
      rfl
    · rw [hshown]
      exact showsChecked_checkLines loaded _ _
    · rwa [hname]
    · rwa [hname]

/-! ### Parameters that pay one owner -/

/-- The characters of a document for safe ownership, line by line. -/
def ownershipChars : List Char :=
  ["core:", " payment_cycle_length: 5", " valid_from: 0", " valid_to: 100",
    " subgraph_config_location:", "  safe_owner: /d",
    " token: \"0x0000000000000000000000000000000000000001\"",
    "user_defined:", " reward_per_safe: 2", " max_rewards: 3", " duration: 100",
    "run:", " payment_cycle: 10", " reward_program_id: \"0xp\""].flatMap
      fun line => line.toList ++ ['\n']

/-- What they spell out. -/
def ownershipDocument : ParameterDocument where
  rule := none
  core := ⟨Dictionary.empty.insert "safe_owner" "/d", 5, 0, 100,
    "0x0000000000000000000000000000000000000001"⟩
  userDefined := .ofList
    [("reward_per_safe", .integer 2), ("max_rewards", .integer 3), ("duration", .integer 100)]
  run := ⟨10, "0xp", 1⟩

/-- The file of the blocks from 5 to 9. -/
def ownershipFile : Place :=
  ["d", "data", "subgraph=Q", "table=safe_owner", "partition_size=5", "start_partition=5",
    "end_partition=10", "data.parquet"]

/-- A tree with the document and a dataset in which one owner has two safes. -/
def ownershipTree : FileTree where
  workingDirectory := []
  nodes :=
    [(["p"], .ofText (String.ofList ownershipChars)),
      (["d", "config.yaml"], .ofText "subgraph: Q\ntables:\n safe_owner:\n  partition_sizes: [5]"),
      (["d", "latest.yaml"], .ofText "latest_block: 17"),
      (ownershipFile, .file (.table
        [⟨"owner", .utf8, [.text "ann", .text "ann"]⟩,
          ⟨"block_number", .int64, [.integer 7, .integer 8]⟩,
          ⟨"safe", .utf8, [.text "0xa1", .text "0xa2"]⟩]))] ++
    ownershipFile.dropLast.inits.map (·, .directory)

def ownershipArguments : ParameterArguments :=
  ⟨some "/p", some "SafeOwnership", "./input"⟩

def ownershipLoaded : Loaded :=
  ⟨"/p", "SafeOwnership", ownershipDocument⟩

set_option maxRecDepth 20000 in
theorem load_ownershipTree :
    load .empty ownershipTree ownershipArguments = .ok ownershipLoaded := by
  have hnames : Template.names ownershipChars = [] := by decide +kernel
  have hread : Yaml.readChars ParameterDocument.read ownershipChars = .ok ownershipDocument := rfl
  have hfile : ownershipTree.resolve "/p" =
      .ok (["p"], .ofText (String.ofList ownershipChars)) := rfl
  refine load_eq_ok_iff.mpr ⟨rfl, ?_, rfl, rfl⟩
  show ParameterDocument.ofFile .empty ownershipTree "/p" = _
  rw [ParameterDocument.ofFile, FileTree.readText_of_resolve hfile]
  exact ParameterDocument.ofText_ofList hnames hread

/-- The owner is paid for both safes, up to the greatest reward, and this can be written. -/
theorem compute_ownershipTree : ∃ computed handoff after,
    compute ownershipTree ownershipLoaded = .ok (computed, handoff) ∧
    computed.payments = [⟨"ann", 3.0, ownershipDocument.core.token, "0xp", 10, 10, 110⟩] ∧
    handoff.write "/out" ownershipTree = (.ok (), after) := by
  have hpaid : (match compute ownershipTree ownershipLoaded with
      | .ok (computed, handoff) =>
        computed.payments = [⟨"ann", 3.0, ownershipDocument.core.token, "0xp", 10, 10, 110⟩] &&
          (handoff.write "/out" ownershipTree).1.isOk
      | .error _ => false) = true := by decide +kernel
  cases hcompute : compute ownershipTree ownershipLoaded with
  | error failure =>
      rw [hcompute] at hpaid
      cases hpaid
  | ok result =>
      obtain ⟨computed, handoff⟩ := result
      rw [hcompute] at hpaid
      obtain ⟨hpayments, hwritten⟩ := Bool.and_eq_true_iff.mp hpaid
      cases hwrite : handoff.write "/out" ownershipTree with
      | mk outcome after =>
          rw [hwrite] at hwritten
          cases outcome with
          | error problem => cases hwritten
          | ok _ => exact ⟨computed, handoff, after, rfl, of_decide_eq_true hpayments, hwrite⟩

theorem exitCode_run_ownershipTree :
    ((Command.run ownershipArguments "/out").perform .empty ownershipTree).exitCode = 0 := by
  obtain ⟨computed, handoff, after, hcompute, -, hwrite⟩ := compute_ownershipTree
  have hpaid : payOut .empty ownershipTree ownershipArguments "/out" =
      .success (runLines computed handoff (Handoff.filePath "/out")) after :=
    payOut_of_written load_ownershipTree hcompute hwrite
  exact congrArg Effect.exitCode hpaid

/-- Parameters that pay one owner pass the check, and both commands show the same identity. -/
theorem check_agrees_with_run_one_owner : ∃ checked paid identity,
    (Command.check ownershipArguments).perform .empty ownershipTree = checked ∧
    (Command.run ownershipArguments "/out").perform .empty ownershipTree = paid ∧
    checked.exitCode = 0 ∧ paid.exitCode = 0 ∧
    ShowsChecked checked.output "SafeOwnership" identity ∧
    ShowsPaid paid.output "SafeOwnership" identity := by
  obtain ⟨loaded, computed, handoff, hload, hcompute, -, hchecked, hshowsPaid, hshowsChecked⟩ :=
    (check_agrees_with_run .empty ownershipTree ownershipArguments "/out").2.1
      exitCode_run_ownershipTree
  obtain rfl := Except.ok.inj (hload.symm.trans load_ownershipTree)
  obtain ⟨rule, hmade, hrule, -⟩ := made_of_compute hcompute
  have hname : computed.rule = "SafeOwnership" :=
    hrule.trans (BuiltIn.isBuilt_of_make hmade).2
  rw [hname] at hshowsPaid hshowsChecked
  exact ⟨_, _, computed.identity, rfl, rfl, congrArg Effect.exitCode hchecked,
    exitCode_run_ownershipTree, hshowsChecked, hshowsPaid⟩

end Command

end Rewards
