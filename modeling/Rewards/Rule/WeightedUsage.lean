/-
Weighted usage: a reward for using prepaid cards.

An owner who pays with a card in a cycle gets a base reward, something for each
payment, and something for each unit spent.
-/
import Rewards.Rule.Scheme

namespace Rewards

/-- The parameters of weighted usage. -/
structure WeightedUsageParameters where
  /-- For every owner with a payment in the cycle. -/
  baseReward : Float
  /-- For each payment. -/
  transactionFactor : Float
  /-- For each unit spent. -/
  spendFactor : Float
  /-- For how many blocks a payment can be claimed. -/
  duration : UInt64
deriving DecidableEq

namespace WeightedUsageParameters

/-- The parameters with their types. -/
def typed (p : WeightedUsageParameters) : Typed :=
  .record
    [("base_reward", .double p.baseReward),
     ("transaction_factor", .double p.transactionFactor),
     ("spend_factor", .double p.spendFactor),
     ("duration", .unsigned p.duration)]

/-- The parameters as a JSON object. -/
def toJson (p : WeightedUsageParameters) : Json :=
  .object
    [("base_reward", .real p.baseReward),
     ("transaction_factor", .real p.transactionFactor),
     ("spend_factor", .real p.spendFactor),
     ("duration", .natural p.duration.toNat)]

open Shape

/-- The parameters read from their fields. -/
def read {m : Type → Type} [Monad m] {ν : Type} [Source m ν] : ν → m WeightedUsageParameters :=
  record "WeightedUsageParameters" .strict
    (mk <$> Fields.required "base_reward" Source.real
      <*> Fields.required "transaction_factor" Source.real
      <*> Fields.required "spend_factor" Source.real
      <*> Fields.required "duration" word)

end WeightedUsageParameters

/-- The rule with its parameters. -/
structure WeightedUsage where
  core : CoreParameters
  parameters : WeightedUsageParameters
deriving DecidableEq

namespace WeightedUsage

/-- The name of the rule. -/
def name : String := "WeightedUsage"

/-- The rule with parameters that it accepts. -/
def ofParameters (core : CoreParameters) (userDefined : UserDefined) : Outcome WeightedUsage := do
  let p ← readParameters name WeightedUsageParameters.read userDefined
  requireNonNegative name "base_reward" p.baseReward
  requireNonNegative name "transaction_factor" p.transactionFactor
  requireNonNegative name "spend_factor" p.spendFactor
  return ⟨core, p⟩

/-- The base reward, and the factors times the number of payments and the sum spent. -/
def formula : Formula :=
  .sumOf [.parameter 1] [[.parameter 2, .rowCount], [.parameter 3, .total]]

/-- The rule as a scheme. -/
def toScheme (w : WeightedUsage) : Scheme where
  name := name
  core := w.core
  table := "prepaid_card_payment"
  payee := "prepaid_card_owner"
  measured := "spend_amount"
  formula := formula
  doubles := [w.parameters.baseReward, w.parameters.transactionFactor, w.parameters.spendFactor]
  duration := w.parameters.duration
  parameters := w.parameters.typed

end WeightedUsage

end Rewards
