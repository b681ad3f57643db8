/-
Rules: how rewards are computed, cycle by cycle.

A rule has a name, core parameters and an identity.  It answers for one payment cycle
with a table, brings the tables of several cycles together in one, and turns that one
into payments.  Its operations are steps that may change a state, namely what the
store of partitions has read, and they may fail.

A rule that answers with a query says which; unless it does, asking for the query is a
problem of its own kind, so a rule that forgets it pays nobody by accident.
-/
import Rewards.Identity
import Rewards.Json.Source
import Rewards.Payment
import Rewards.Query.Evaluation

namespace Rewards

/-- What a rule works with: where files are found, and how tables are read. -/
structure Context (σ : Type) where
  source : PartitionSource σ
  read : TableReader

/-- A rule, whose steps act on states of type `σ`. -/
structure Rule (σ : Type) where
  name : String
  core : CoreParameters
  /-- The digests that identify the configured rule. -/
  identity : Action σ RuleIdentity
  /-- The query for the rewards of a range of blocks. -/
  query : Context σ → BlockRange → Action σ (Query Statement) :=
    fun _ _ => throw (.missingOperation name "sql")
  /-- The answer for one payment cycle of a program. -/
  run : Context σ → (cycle : Block) → (program : String) → Action σ ResultTable
  /-- One table for the answers of several cycles. -/
  aggregate : List ResultTable → Action σ ResultTable
  /-- The payments of a table for a payment cycle of a program. -/
  paymentList : ResultTable → (cycle : Block) → (program : String) →
    Action σ (List PaymentRecord)

/-- The answer of a query. -/
def answer {σ : Type} (context : Context σ) (query : Action σ (Query Statement))
    (arguments : List Argument) : Action σ ResultTable := do
  let query ← query
  Action.ofOutcome (query.evaluate context.read arguments)

/-- The number of a block in a query, where numbers are signed words. -/
def blockNumber (block : Block) : Outcome Int :=
  if block.toNat < Word.count 63 then .ok block.toNat
  else .error (.configuration ("block number " ++ wordText block ++ " exceeds i64"))

/-! ### Parameters of a rule -/

/-- A rule's own parameters, read from the user-defined ones. -/
def readParameters {α : Type} (rule : String) (read : Json → Except Shape.Mismatch α)
    (userDefined : UserDefined) : Outcome α :=
  match read (userDefined.toJson id) with
  | .ok parameters => .ok parameters
  | .error mismatch =>
    .error (.configuration (rule ++ ": invalid user_defined parameters: " ++ Json.sentence mismatch))

/-- Success if a parameter is finite and not below zero. -/
def requireNonNegative (rule key : String) (x : Float) : Outcome Unit :=
  if x.isFinite && 0.0 ≤ x then .ok ()
  else
    .error (.configuration
      (rule ++ ": '" ++ key ++ "' must be a finite non-negative number, got " ++ Typed.floatText x))

/-! ### Payments -/

/-- Success if an amount can be paid. -/
def requirePayable (payee : String) (amount : Float) : Outcome Unit :=
  if amount.isFinite && !(amount < 0.0) then .ok ()
  else
    .error (.execution "normalizing payments"
      (.told ("invalid amount " ++ Typed.floatText amount ++ " for payee " ++ payee)))

/-- The last block at which a payment can be claimed. -/
def claimableUntil (cycle : Block) (duration : UInt64) : Block :=
  UInt64.ofNat (min (cycle.toNat + duration.toNat) (Word.count 64 - 1))

/-- The payment of a reward. -/
def paymentOf (core : CoreParameters) (program : String) (cycle : Block) (duration : UInt64)
    (reward : String × Float) : Outcome PaymentRecord := do
  requirePayable reward.1 reward.2
  return ⟨reward.1, reward.2, core.token, program, cycle, cycle, claimableUntil cycle duration⟩

/-- The payments of a table of rewards, ordered by payee. -/
def paymentsOf (table : ResultTable) (core : CoreParameters) (program : String) (cycle : Block)
    (duration : UInt64) : Outcome (List PaymentRecord) := do
  let payments ← (← table.rewards).mapM (paymentOf core program cycle duration)
  return payments.mergeSort (fun a b => a.payee ≤ b.payee)

end Rewards
