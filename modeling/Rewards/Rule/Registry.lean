/-
The registry of rules: constructors by name.

A name is registered once.  Creating a rule looks up the name first, then validates
the core parameters, and only then hands the parameters to the constructor.
-/
import Rewards.Parameters.Validation
import Rewards.Rule.SafeOwnership
import Rewards.Rule.WeightedUsage

namespace Rewards

/-- How a rule is made from its parameters. -/
abbrev RuleConstructor (σ : Type) := CoreParameters → UserDefined → Outcome (Rule σ)

/-- The rules that can be made, by name. -/
structure Registry (σ : Type) where
  constructors : Dictionary (RuleConstructor σ)

namespace Registry

variable {σ : Type}

/-- The registry without rules. -/
def empty : Registry σ := ⟨.empty⟩

/-- The constructor of weighted usage. -/
def weightedUsage (digest : List UInt8 → Digest) : RuleConstructor σ :=
  fun core userDefined => do
    return (← WeightedUsage.ofParameters core userDefined).toScheme.toRule digest

/-- The constructor of safe ownership. -/
def safeOwnership (digest : List UInt8 → Digest) : RuleConstructor σ :=
  fun core userDefined => do
    return (← SafeOwnership.ofParameters core userDefined).toScheme.toRule digest

/-- The registry of the rules of this library. -/
def builtIn (digest : List UInt8 → Digest) : Registry σ :=
  ⟨(Dictionary.empty.insert WeightedUsage.name (weightedUsage digest)).insert
    SafeOwnership.name (safeOwnership digest)⟩

/-- The names of the rules, ascending. -/
def names (registry : Registry σ) : List String :=
  registry.constructors.keys

/-- Whether a name is registered. -/
def contains (registry : Registry σ) (name : String) : Bool :=
  registry.constructors.contains name

/-- The registry with one more rule. -/
def register (registry : Registry σ) (name : String) (constructor : RuleConstructor σ) :
    Outcome (Registry σ) :=
  if registry.contains name then
    .error (.configuration ("rule '" ++ name ++ "' is already registered"))
  else .ok ⟨registry.constructors.insert name constructor⟩

/-- The rule of a name with its parameters. -/
def create (registry : Registry σ) (name : String) (core : CoreParameters)
    (userDefined : UserDefined) : Outcome (Rule σ) :=
  match registry.constructors.get? name with
  | none =>
    .error (.configuration ("unknown rule '" ++ name ++ "' (known rules: " ++
      ", ".intercalate registry.names ++ ")"))
  | some constructor => do
    core.validate
    constructor core userDefined

end Registry

end Rewards
