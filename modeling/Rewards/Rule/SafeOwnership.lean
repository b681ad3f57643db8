/-
Safe ownership: a reward for each safe that somebody owns.

An owner gets the same for every different safe in a cycle, up to a greatest amount.
-/
import Rewards.Rule.Scheme

namespace Rewards

/-- The parameters of safe ownership. -/
structure SafeOwnershipParameters where
  /-- For each safe. -/
  rewardPerSafe : Float
  /-- The greatest reward of an owner in a cycle. -/
  maxRewards : Float
  /-- For how many blocks a payment can be claimed. -/
  duration : UInt64
deriving DecidableEq

namespace SafeOwnershipParameters

/-- The parameters with their types. -/
def typed (p : SafeOwnershipParameters) : Typed :=
  .record
    [("reward_per_safe", .double p.rewardPerSafe),
     ("max_rewards", .double p.maxRewards),
     ("duration", .unsigned p.duration)]

/-- The parameters as a JSON object. -/
def toJson (p : SafeOwnershipParameters) : Json :=
  .object
    [("reward_per_safe", .real p.rewardPerSafe),
     ("max_rewards", .real p.maxRewards),
     ("duration", .natural p.duration.toNat)]

open Shape

/-- The parameters read from their fields. -/
def read {m : Type → Type} [Monad m] {ν : Type} [Source m ν] : ν → m SafeOwnershipParameters :=
  record "SafeOwnershipParameters" .strict
    (mk <$> Fields.required "reward_per_safe" Source.real
      <*> Fields.required "max_rewards" Source.real
      <*> Fields.required "duration" word)

end SafeOwnershipParameters

/-- The rule with its parameters. -/
structure SafeOwnership where
  core : CoreParameters
  parameters : SafeOwnershipParameters
deriving DecidableEq

namespace SafeOwnership

/-- The name of the rule. -/
def name : String := "SafeOwnership"

/-- The rule with parameters that it accepts. -/
def ofParameters (core : CoreParameters) (userDefined : UserDefined) : Outcome SafeOwnership := do
  let p ← readParameters name SafeOwnershipParameters.read userDefined
  requireNonNegative name "reward_per_safe" p.rewardPerSafe
  requireNonNegative name "max_rewards" p.maxRewards
  return ⟨core, p⟩

/-- The reward for a safe times the number of different safes, up to the greatest reward. -/
def formula : Formula :=
  .capped [.parameter 1, .valueCount] (.parameter 2)

/-- The rule as a scheme. -/
def toScheme (s : SafeOwnership) : Scheme where
  name := name
  core := s.core
  table := "safe_owner"
  payee := "owner"
  measured := "safe"
  formula := formula
  doubles := [s.parameters.rewardPerSafe, s.parameters.maxRewards]
  duration := s.parameters.duration
  parameters := s.parameters.typed

end SafeOwnership

end Rewards
