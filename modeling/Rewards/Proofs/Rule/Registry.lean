/-
What the registry makes of a name.

Whatever a rule is to act on, the registry makes a rule of this library, or has the same
problem: it looks at the name and at the parameters only.  The rule bears the name that it was
asked for by.
-/
import Rewards.Proofs.Dictionary
import Rewards.Proofs.Rule.Identity

namespace Rewards

namespace BuiltIn

/-- The rule of a name with its parameters. -/
def make (name : String) (core : CoreParameters) (userDefined : UserDefined) : Outcome BuiltIn :=
  if name = SafeOwnership.name then do
    core.validate
    return .safeOwnership (← SafeOwnership.ofParameters core userDefined)
  else if name = WeightedUsage.name then do
    core.validate
    return .weightedUsage (← WeightedUsage.ofParameters core userDefined)
  else
    .error (.configuration ("unknown rule '" ++ name ++ "' (known rules: " ++
      ", ".intercalate [SafeOwnership.name, WeightedUsage.name] ++ ")"))

end BuiltIn

namespace Registry

variable {σ : Type} {digest : List UInt8 → Digest}

theorem names_builtIn : (builtIn digest : Registry σ).names =
    [SafeOwnership.name, WeightedUsage.name] :=
  rfl

theorem get?_builtIn (name : String) :
    (builtIn digest : Registry σ).constructors.get? name =
      if SafeOwnership.name = name then some (safeOwnership digest)
      else if WeightedUsage.name = name then some (weightedUsage digest) else none := by
  rw [builtIn, Dictionary.get?_insert, Dictionary.get?_insert]
  rfl

/-- **The registry makes the rules of this library**, and which states they act on is all the same. -/
theorem create_builtIn (name : String) (core : CoreParameters) (userDefined : UserDefined) :
    (builtIn digest : Registry σ).create name core userDefined =
      (BuiltIn.make name core userDefined).map fun rule => rule.toScheme.toRule digest := by
  rw [create, get?_builtIn, BuiltIn.make]
  by_cases hsafe : SafeOwnership.name = name
  · rw [if_pos hsafe, if_pos hsafe.symm]
    cases core.validate with
    | error problem => rfl
    | ok _ =>
        simp only [Outcome.ok_bind, safeOwnership]
        cases SafeOwnership.ofParameters core userDefined <;> rfl
  · rw [if_neg hsafe, if_neg (Ne.symm hsafe)]
    by_cases hweighted : WeightedUsage.name = name
    · rw [if_pos hweighted, if_pos hweighted.symm]
      cases core.validate with
      | error problem => rfl
      | ok _ =>
          simp only [Outcome.ok_bind, weightedUsage]
          cases WeightedUsage.ofParameters core userDefined <;> rfl
    · rw [if_neg hweighted, if_neg (Ne.symm hweighted), names_builtIn]
      rfl

end Registry

namespace BuiltIn

/-- A rule that is made for a name has been made by its constructor and bears the name. -/
theorem isBuilt_of_make {name : String} {core : CoreParameters} {userDefined : UserDefined}
    {rule : BuiltIn} (h : make name core userDefined = .ok rule) :
    rule.IsBuilt ∧ rule.toScheme.name = name := by
  unfold make at h
  split_ifs at h with hsafe hweighted
  · obtain ⟨_, -, h⟩ := Outcome.bind_eq_ok.mp h
    obtain ⟨made, hmade, h⟩ := Outcome.bind_eq_ok.mp h
    obtain rfl := Except.ok.inj h
    exact ⟨.safeOwnership hmade, hsafe.symm⟩
  · obtain ⟨_, -, h⟩ := Outcome.bind_eq_ok.mp h
    obtain ⟨made, hmade, h⟩ := Outcome.bind_eq_ok.mp h
    obtain rfl := Except.ok.inj h
    exact ⟨.weightedUsage hmade, hweighted.symm⟩

end BuiltIn

end Rewards
