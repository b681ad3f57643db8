/-
Schemes: rules that pay by one statement over one table.

For a cycle in the validity window a scheme asks for the amounts of all payees with
rows in the blocks of the cycle; for a cycle outside there are none.  The answers of
several cycles are summed payee by payee.
-/
import Rewards.Cycle
import Rewards.Rule

namespace Rewards

/-- A rule that pays by one statement. -/
structure Scheme where
  name : String
  core : CoreParameters
  /-- The table whose rows are rewarded. -/
  table : String
  /-- The column of the payees. -/
  payee : String
  /-- The column that is measured. -/
  measured : String
  formula : Formula
  /-- The parameters of the formula. -/
  doubles : List Float
  /-- For how many blocks a payment can be claimed. -/
  duration : UInt64
  /-- The parameters as they are identified. -/
  parameters : Typed

namespace Scheme

variable {σ : Type}

/-- The statement over a relation; the ends of the range follow the parameters of the formula. -/
def statement (s : Scheme) (relation : String) : Statement :=
  ⟨s.payee, s.measured, s.formula, relation, s.doubles.length + 1, s.doubles.length + 2⟩

/-- The identity of the scheme. -/
def identity (digest : List UInt8 → Digest) (s : Scheme) : Outcome RuleIdentity := do
  Identity.ofCore digest s.core (← Identity.valueHash digest s.parameters)

/-- The query for a range of blocks. -/
def query (s : Scheme) (context : Context σ) (range : BlockRange) : Action σ (Query Statement) :=
  draftQuery do
    let relation ← QueryDraft.table context.source s.core.locations s.table range
    return s.statement relation

/-- The values of the parameters of the statement. -/
def arguments (s : Scheme) (range : BlockRange) : Outcome (List Argument) := do
  let first ← blockNumber range.first
  let last ← blockNumber range.last
  return s.doubles.map .double ++ [.block first, .block last]

/-- The answer for a cycle. -/
def run (s : Scheme) (context : Context σ) (cycle : Block) : Action σ ResultTable := do
  match s.core.cycleRange? cycle with
  | none => return .noRewards
  | some range =>
    let arguments ← Action.ofOutcome (s.arguments range)
    answer context (s.query context range) arguments

/-- The sums of the rewards of all cycles. -/
def aggregate (tables : List ResultTable) : Outcome ResultTable := do
  return .ofRewards (← sumByPayee tables)

/-- The scheme as a rule. -/
def toRule (digest : List UInt8 → Digest) (s : Scheme) : Rule σ where
  name := s.name
  core := s.core
  identity := Action.ofOutcome (s.identity digest)
  query := s.query
  run context cycle _ := s.run context cycle
  aggregate tables := Action.ofOutcome (aggregate tables)
  paymentList table cycle program :=
    Action.ofOutcome (paymentsOf table s.core program cycle s.duration)

end Scheme

end Rewards
