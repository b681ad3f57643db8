/-
Validation: what a document must satisfy beyond its shape.

Every condition that is violated is reported, one item for each, the conditions on
the core parameters first.  The conditions on tables are checked table by table, in
ascending order of their names.
-/
import Rewards.Parameters
import Rewards.Text.Form

namespace Rewards

/-- An item of a report, present when its condition is violated. -/
def itemIf (violated : Bool) (item : String) : List String :=
  if violated then [item] else []

/-- What is wrong with the entry of one table. -/
def locationItems (table location : String) : List String :=
  itemIf (!Text.isIdentifier table)
    ("subgraph_config_location: '" ++ table ++ "' is not a lowercase table name") ++
  itemIf (Text.allBlank location)
    ("subgraph_config_location: empty location for '" ++ table ++ "'")

/-- What is wrong with core parameters. -/
def CoreParameters.items (core : CoreParameters) : List String :=
  itemIf (core.cycleLength = 0) "payment_cycle_length must be > 0" ++
  itemIf (core.validTo < core.validFrom)
    ("valid_from (" ++ wordText core.validFrom ++ ") must not be after valid_to (" ++
      wordText core.validTo ++ ")") ++
  itemIf (!Text.isAddress core.token)
    ("token '" ++ core.token ++ "' is not a 0x-prefixed 40 hex digit address") ++
  itemIf core.locations.isEmpty "subgraph_config_location must map at least one table" ++
  core.locations.entries.flatMap fun e => locationItems e.1 e.2

/-- What is wrong with a document. -/
def ParameterDocument.items (document : ParameterDocument) : List String :=
  document.core.items ++
  itemIf (Text.allBlank document.run.programId) "run.reward_program_id must not be empty" ++
  itemIf (document.run.cycles = 0) "run.cycles must be at least 1" ++
  itemIf (document.rule.any Text.allBlank) "rule must not be empty when given"

/-- Success, or the report of all items. -/
def report (items : List String) : Outcome Unit :=
  if items.isEmpty then .ok ()
  else
    .error (.configuration
      ("parameter validation failed:\n  - " ++ "\n  - ".intercalate items))

/-- Success if core parameters satisfy all conditions. -/
def CoreParameters.validate (core : CoreParameters) : Outcome Unit :=
  report core.items

/-- Success if a document satisfies all conditions. -/
def ParameterDocument.validate (document : ParameterDocument) : Outcome Unit :=
  report document.items

end Rewards
