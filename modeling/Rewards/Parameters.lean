/-
Parameters: what a reward program is configured with.

The core parameters are the same for every rule: where its tables are stored, how
long a payment cycle is, from which block to which block the program pays, and in
which token.  The user-defined parameters are a rule's own and stay uninterpreted
here.  A run selection names the payment cycles to compute, and a document holds all
three and may name the rule.  No record but the user-defined one admits keys that it
does not know.
-/
import Rewards.Block

namespace Rewards

/-- The parameters that are the same for every rule. -/
structure CoreParameters where
  /-- The location of the data of each table. -/
  locations : Dictionary String
  /-- The number of blocks in a payment cycle. -/
  cycleLength : UInt64
  /-- The first block of the validity window. -/
  validFrom : Block
  /-- The last end of a cycle that the program pays for. -/
  validTo : Block
  /-- The address of the reward token. -/
  token : String
deriving DecidableEq

/-- The parameters that a rule defines for itself. -/
abbrev UserDefined := Dictionary Json

/-- The payment cycles to compute. -/
structure RunSelection where
  /-- The end of the last cycle. -/
  paymentCycle : Block
  /-- The program that pays. -/
  programId : String
  /-- The number of consecutive cycles. -/
  cycles : UInt32
deriving DecidableEq

/-- A document of parameters. -/
structure ParameterDocument where
  /-- The rule, unless it is named elsewhere. -/
  rule : Option String
  core : CoreParameters
  userDefined : UserDefined
  run : RunSelection

namespace Dictionary

/-- A dictionary as a JSON object. -/
def toJson {α : Type} (value : α → Json) (d : Dictionary α) : Json :=
  .object (d.entries.map fun e => (e.1, value e.2))

end Dictionary

namespace CoreParameters

/-- The core parameters as a JSON object. -/
def toJson (core : CoreParameters) : Json :=
  .object
    [("subgraph_config_location", core.locations.toJson .text),
     ("payment_cycle_length", .natural core.cycleLength.toNat),
     ("valid_from", .natural core.validFrom.toNat),
     ("valid_to", .natural core.validTo.toNat),
     ("token", .text core.token)]

end CoreParameters

namespace RunSelection

/-- The selection of the one cycle that ends at a block. -/
def single (paymentCycle : Block) (programId : String) : RunSelection :=
  ⟨paymentCycle, programId, 1⟩

/-- The selection as a JSON object. -/
def toJson (run : RunSelection) : Json :=
  .object
    [("payment_cycle", .natural run.paymentCycle.toNat),
     ("reward_program_id", .text run.programId),
     ("cycles", .natural run.cycles.toNat)]

end RunSelection

namespace ParameterDocument

/-- The document as a JSON object, in which a rule that is not named has no member. -/
def toJson (document : ParameterDocument) : Json :=
  .object
    ((document.rule.toList.map fun rule => ("rule", .text rule)) ++
      [("core", document.core.toJson),
       ("user_defined", document.userDefined.toJson id),
       ("run", document.run.toJson)])

end ParameterDocument

open Shape

variable {m : Type → Type} [Monad m] {ν : Type} [Source m ν]

/-- The core parameters read from their fields. -/
def CoreParameters.read : ν → m CoreParameters :=
  record "CoreParameters" .strict
    (mk <$> Fields.required "subgraph_config_location" (dictionary Source.text)
      <*> Fields.required "payment_cycle_length" word
      <*> Fields.required "valid_from" word
      <*> Fields.required "valid_to" word
      <*> Fields.required "token" Source.text)

/-- A selection read from its fields; one cycle is selected by default. -/
def RunSelection.read : ν → m RunSelection :=
  record "RunSelection" .strict
    (mk <$> Fields.required "payment_cycle" word
      <*> Fields.required "reward_program_id" Source.text
      <*> Fields.defaulted "cycles" halfWord 1)

/-- A document read from its fields; the rule and the user-defined parameters may be left out. -/
def ParameterDocument.read : ν → m ParameterDocument :=
  record "ParameterDocument" .strict
    (mk <$> Fields.defaulted "rule" (optional Source.text) none
      <*> Fields.required "core" CoreParameters.read
      <*> Fields.defaulted "user_defined" (dictionary Source.value) .empty
      <*> Fields.required "run" RunSelection.read)

end Rewards
