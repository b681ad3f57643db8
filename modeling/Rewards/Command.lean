/-
Commands: what the program does with the files it sees.

Performing a command is a function of the environment and a file tree.  It gives the
lines that are shown, an exit code, and the tree that is left.  Only computing payments
changes the tree, and only as its last step, when the table of payments is complete.
-/
import Rewards.Command.Arguments
import Rewards.Command.Failure
import Rewards.Computation
import Rewards.Files.Tables
import Rewards.Parameters.Document
import Rewards.Payment.Table
import Rewards.Rule.Registry
import Rewards.Text.Form

namespace Rewards

/-- What a command does. -/
structure Effect where
  exitCode : Nat
  /-- The lines that are shown. -/
  output : List String
  /-- The lines that show what went wrong. -/
  errors : List String
  /-- The files afterwards. -/
  tree : FileTree
deriving DecidableEq

/-- Success with some lines. -/
def Effect.success (output : List String) (tree : FileTree) : Effect :=
  ⟨0, output, [], tree⟩

/-- A failure after some lines. -/
def Effect.failure (output : List String) (failure : Failure) (tree : FileTree) : Effect :=
  ⟨1, output, failure.report, tree⟩

namespace Command

/-! ### Parameters -/

/-- A document of parameters that has been validated, and the rule it is for. -/
structure Loaded where
  path : String
  rule : String
  document : ParameterDocument

/-- The default document of a rule. -/
def defaultPath (inputRoot rule : String) : String :=
  Path.join (Path.join inputRoot (Text.snakeCase rule)) "parameters.json"

/-- The document that arguments ask for: the one they name, or the default one of the rule. -/
def parametersPath (arguments : ParameterArguments) : Outcome String :=
  match arguments.parameters, arguments.rule with
  | some path, _ => .ok path
  | none, some rule => .ok (defaultPath arguments.inputRoot rule)
  | none, none =>
    .error (.configuration
      "no parameters given: pass --parameters, or --rule / RULE to use the default document")

/-- The rule that an argument and a document name; if both do they must agree. -/
def resolveRule (argument document : Option String) : Outcome String :=
  match argument, document with
  | some argument, some named =>
    if argument = named then .ok argument
    else
      .error (.configuration ("rule '" ++ argument ++ "' does not match rule '" ++ named ++
        "' in the parameters file"))
  | some argument, none => .ok argument
  | none, some named => .ok named
  | none, none =>
    .error (.configuration
      "no rule given: pass --rule, set RULE, or add `rule` to the parameters file")

/-- An outcome whose problem is a failure. -/
def orFailure {α : Type} (outcome : Outcome α) : Except Failure α :=
  outcome.mapError Failure.ofProblem

/-- An outcome whose problem is a failure in a context. -/
def orFailureWithin {α : Type} (context : String) (outcome : Outcome α) : Except Failure α :=
  outcome.mapError fun problem => (Failure.ofProblem problem).within context

/-- The parameters that arguments ask for. -/
def load (environment : Template.Environment) (tree : FileTree) (arguments : ParameterArguments) :
    Except Failure Loaded := do
  let path ← orFailure (parametersPath arguments)
  let document ← orFailureWithin ("Failed to load parameters: " ++ path)
    (ParameterDocument.ofFile environment tree path)
  orFailure document.validate
  let rule ← orFailure (resolveRule arguments.rule document.rule)
  return ⟨path, rule, document⟩

/-- The rule of some parameters. -/
def create {σ : Type} (loaded : Loaded) : Except Failure (Rule σ) :=
  orFailure ((Registry.builtIn sha256).create loaded.rule loaded.document.core
    loaded.document.userDefined)

/-! ### Listing rules -/

/-- A text followed by spaces up to a width. -/
def padded (width : Nat) (text : String) : String :=
  text ++ String.ofList (List.replicate (width - text.length) ' ')

/-- The line for a rule. -/
def ruleLine (name : String) : String :=
  padded 18 name ++ " input: <input-root>/" ++ Text.snakeCase name ++ "/parameters.json"

/-- The lines for all rules. -/
def ruleLines : List String :=
  (Registry.builtIn sha256 : Registry Unit).names.map ruleLine

/-! ### Checking parameters -/

/-- The line that shows where the parameters are. -/
def parametersLine (loaded : Loaded) : String :=
  "Parameters:        OK (" ++ loaded.path ++ ")"

/-- The line that shows that there is a rule of a name. -/
def createdLine (rule : String) : String :=
  "Rule:              OK (" ++ rule ++ ")"

/-- The lines that show an identity. -/
def identityLines (identity : RuleIdentity) : List String :=
  ["  Core hash:         " ++ identity.coreHash,
   "  User-defined hash: " ++ identity.userDefinedHash,
   "  Rule hash:         " ++ identity.ruleHash]

/-- Validate parameters and show the identity of the rule; what has been found good stays shown. -/
def checkParameters (environment : Template.Environment) (tree : FileTree)
    (arguments : ParameterArguments) : Effect :=
  match load environment tree arguments with
  | .error failure => .failure [] failure tree
  | .ok loaded =>
    match (create loaded : Except Failure (Rule Unit)) with
    | .error failure => .failure [parametersLine loaded] failure tree
    | .ok rule =>
      let shown := [parametersLine loaded, createdLine rule.name]
      match (rule.identity.perform ()).1 with
      | .error problem => .failure shown (.ofProblem problem) tree
      | .ok identity =>
        .success (shown ++ identityLines identity ++ ["", "All checks passed."]) tree

/-! ### Computing payments -/

/-- The payments of some parameters, and the table to hand off. -/
def compute (tree : FileTree) (loaded : Loaded) : Except Failure (PaymentRun × Handoff) := do
  let rule ← create loaded
  let context : Context PartitionStore := ⟨PartitionStore.partitionFiles tree, tree.storedTables⟩
  let run ← orFailureWithin ("Rule '" ++ loaded.rule ++ "' failed")
    ((computePayments rule context loaded.document.run).perform .fresh).1
  let handoff ← orFailure (PaymentTree.handoff sha256 run.payments)
  return (run, handoff)

/-- A list of words between brackets. -/
def wordsText (words : List UInt64) : String :=
  "[" ++ ", ".intercalate (words.map wordText) ++ "]"

/-- The summary as a JSON object, in which a total that is not finite is null. -/
def summaryJson (summary : PaymentSummary) : Json :=
  .object
    [("total_reward", if summary.totalReward.isFinite then .real summary.totalReward else .null),
     ("unique_payee", .natural summary.uniquePayees)]

/-- What has been computed as a JSON object. -/
def runJson (run : PaymentRun) (root output : String) : Json :=
  .object
    [("rule", .text run.rule),
     ("identity", run.identity.toJson),
     ("cycles", .array (run.cycles.map fun c => .natural c.toNat)),
     ("summary", summaryJson run.summary),
     ("root", .text root),
     ("output", .text output)]

/-- The lines that show what has been computed and written. -/
def runLines (run : PaymentRun) (handoff : Handoff) (output : String) : List String :=
  ["Rule '" ++ run.rule ++ "' completed successfully.",
   "  Rule hash:       " ++ run.identity.ruleHash,
   "  Cycles:          " ++ wordsText run.cycles,
   "  Payments:        " ++ natText run.payments.length,
   "  Unique payees:   " ++ natText run.summary.uniquePayees,
   "  Total reward:    " ++ Typed.floatText run.summary.totalReward,
   "  Root:            " ++ handoff.root,
   "  Output:          " ++ output,
   (runJson run handoff.root output).canonical]

/-- Compute payments and write them into a directory. -/
def payOut (environment : Template.Environment) (tree : FileTree) (arguments : ParameterArguments)
    (directory : String) : Effect :=
  match (do compute tree (← load environment tree arguments)) with
  | .error failure => .failure [] failure tree
  | .ok (computed, handoff) =>
    match handoff.write directory tree with
    | (.error problem, after) =>
      .failure []
        ((Failure.ofProblem problem).within ("Failed to write results to " ++ directory)) after
    | (.ok (), after) => .success (runLines computed handoff (Handoff.filePath directory)) after

/-- Perform a command. -/
def perform (environment : Template.Environment) (tree : FileTree) : Command → Effect
  | .run arguments output => payOut environment tree arguments output
  | .check arguments => checkParameters environment tree arguments
  | .rules => .success ruleLines tree

end Command

namespace Request

/-- How the program is used. -/
def usage : List String :=
  ["Compute reward program payments from block-partitioned data",
   "",
   "Commands:",
   "  run    Compute payments and write the payment table",
   "  check  Validate parameters, construct the rule and print its identity",
   "  rules  List available rules",
   "",
   "Settings of run and check:",
   "  --parameters <PATH>   Parameter document (YAML or JSON)",
   "  --rule <NAME>         Rule to run, by default the variable RULE",
   "  --input-root <PATH>   Directory of default documents, by default ./input",
   "Setting of run:",
   "  --output <PATH>       Directory to write to, by default ./output"]

/-- Do what is asked for; arguments that are not understood change nothing. -/
def fulfil (environment : Template.Environment) (tree : FileTree) : Request → Effect
  | .perform command => command.perform environment tree
  | .help => .success usage tree
  | .version => .success ["rewards 0.1.0"] tree
  | .misuse => ⟨2, [], [], tree⟩

end Request

end Rewards
