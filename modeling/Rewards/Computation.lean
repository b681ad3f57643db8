/-
Computing payments: a rule evaluated for the selected cycles.

The rule is identified first.  Then it is run for one cycle after the other, from the
first to the last; the answers are brought together, and what results is turned into
the payments of the last cycle.  The first step that fails ends the computation, with
the problem that it reports.
-/
import Rewards.Cycle
import Rewards.Rule

namespace Rewards

/-- What a rule pays for a selection of cycles. -/
structure PaymentRun where
  rule : String
  identity : RuleIdentity
  /-- The ends of the cycles, ascending. -/
  cycles : List Block
  payments : List PaymentRecord
  summary : PaymentSummary
deriving DecidableEq

/-- The problem that no cycle is selected. -/
def noCycle (selection : RunSelection) : Problem :=
  .configuration ("no payment cycle selected ending at " ++ wordText selection.paymentCycle ++ " (" ++
    natText selection.cycles.toNat ++ " cycles)")

/-- The payments of a rule for a selection of cycles. -/
def computePayments {σ : Type} (rule : Rule σ) (context : Context σ) (selection : RunSelection) :
    Action σ PaymentRun := do
  let identity ← rule.identity
  let cycles := selection.paymentCycles rule.core.cycleLength
  match cycles.getLast? with
  | none => throw (noCycle selection)
  | some last =>
    let answers ← cycles.mapM fun cycle => rule.run context cycle selection.programId
    let aggregated ← rule.aggregate answers
    let payments ← rule.paymentList aggregated last selection.programId
    return ⟨rule.name, identity, cycles, payments, .ofPayments payments⟩

end Rewards
