/-
Equal parameters and the identities of their rules.

Parameters are compared as numbers, and an identity is made from how they are written.  The
two differ in one place only: numbers that are equal are the same double unless they are the
two zeros, and both zeros are parameters that a rule accepts.  So rules with equal parameters
are the same, in whatever form the parameters were given, and so are their identities, but
for a zero with a minus sign in one of them and without it in the other.
-/
import Rewards.Proofs.Decimal.Order
import Rewards.Proofs.Rule.Identity

namespace Rewards

/-- Neither or both of two doubles are the zero without a sign. -/
def SameZero (x y : Float) : Prop :=
  x = 0.0 ↔ y = 0.0

/-- Equal numbers are the same if their zeros are. -/
theorem eq_iff_sameZero_of_beq {x y : Float} (h : (x == y) = true) : x = y ↔ SameZero x y := by
  have hzeros : (0.0 : Float) ≠ -0.0 := by decide +kernel
  constructor
  · rintro rfl
    exact Iff.rfl
  · intro hsame
    rcases Decimal.eq_or_zeros_of_beq h with heq | ⟨hx, hy⟩ | ⟨hx, hy⟩
    · exact heq
    · exact absurd ((hsame.mp hx).symm.trans hy) hzeros
    · exact absurd ((hsame.mpr hy).symm.trans hx) hzeros

namespace WeightedUsageParameters

/-- The parameters are equal, doubles as numbers. -/
structure Equal (p q : WeightedUsageParameters) : Prop where
  baseReward : (p.baseReward == q.baseReward) = true
  transactionFactor : (p.transactionFactor == q.transactionFactor) = true
  spendFactor : (p.spendFactor == q.spendFactor) = true
  duration : p.duration = q.duration

variable {p q : WeightedUsageParameters}

theorem Equal.eq (h : p.Equal q) (hbase : SameZero p.baseReward q.baseReward)
    (htransaction : SameZero p.transactionFactor q.transactionFactor)
    (hspend : SameZero p.spendFactor q.spendFactor) : p = q := by
  have hbase := (eq_iff_sameZero_of_beq h.baseReward).mpr hbase
  have htransaction := (eq_iff_sameZero_of_beq h.transactionFactor).mpr htransaction
  have hspend := (eq_iff_sameZero_of_beq h.spendFactor).mpr hspend
  have hduration := h.duration
  cases p
  cases q
  simp_all

end WeightedUsageParameters

namespace SafeOwnershipParameters

/-- The parameters are equal, doubles as numbers. -/
structure Equal (p q : SafeOwnershipParameters) : Prop where
  rewardPerSafe : (p.rewardPerSafe == q.rewardPerSafe) = true
  maxRewards : (p.maxRewards == q.maxRewards) = true
  duration : p.duration = q.duration

variable {p q : SafeOwnershipParameters}

theorem Equal.eq (h : p.Equal q) (hreward : SameZero p.rewardPerSafe q.rewardPerSafe)
    (hmax : SameZero p.maxRewards q.maxRewards) : p = q := by
  have hreward := (eq_iff_sameZero_of_beq h.rewardPerSafe).mpr hreward
  have hmax := (eq_iff_sameZero_of_beq h.maxRewards).mpr hmax
  have hduration := h.duration
  cases p
  cases q
  simp_all

end SafeOwnershipParameters

namespace BuiltIn

/-- The same rule with the same core parameters and equal parameters of its own. -/
inductive HasEqualParameters : BuiltIn → BuiltIn → Prop
  | weightedUsage {core : CoreParameters} {p q : WeightedUsageParameters} (h : p.Equal q) :
      HasEqualParameters (.weightedUsage ⟨core, p⟩) (.weightedUsage ⟨core, q⟩)
  | safeOwnership {core : CoreParameters} {p q : SafeOwnershipParameters} (h : p.Equal q) :
      HasEqualParameters (.safeOwnership ⟨core, p⟩) (.safeOwnership ⟨core, q⟩)

/-- Corresponding parameters have the same zeros. -/
def SameZeros (a b : BuiltIn) : Prop :=
  List.Forall₂ SameZero a.toScheme.doubles b.toScheme.doubles

variable {a b : BuiltIn}

theorem HasEqualParameters.core_eq (h : a.HasEqualParameters b) :
    a.toScheme.core = b.toScheme.core := by
  cases h with
  | weightedUsage => rfl
  | safeOwnership => rfl

/-- **Rules with equal parameters are the same if their zeros are.** -/
theorem HasEqualParameters.eq_iff (h : a.HasEqualParameters b) : a = b ↔ a.SameZeros b := by
  constructor
  · rintro rfl
    exact List.forall₂_same.mpr fun _ _ => Iff.rfl
  · intro hzeros
    cases h with
    | weightedUsage h =>
        obtain _ | ⟨hbase, _ | ⟨htransaction, _ | ⟨hspend, -⟩⟩⟩ := hzeros
        rw [h.eq hbase htransaction hspend]
    | safeOwnership h =>
        obtain _ | ⟨hreward, _ | ⟨hmax, -⟩⟩ := hzeros
        rw [h.eq hreward hmax]

/--
**Rules with equal parameters have the same identity if their zeros are the same**, in whatever
form the parameters were given to their constructors, and only then unless two different strings
with the same digest are among those that were digested.  The hash of the core parameters is the
same in any case.
-/
theorem identity_eq_of_hasEqualParameters {σ : Type} (digest : List UInt8 → Digest)
    (ha : a.IsBuilt) (hb : b.IsBuilt) (h : a.HasEqualParameters b) :
    ∃ i j : RuleIdentity,
      (a.toScheme.toRule digest : Rule σ).identity = Action.ofOutcome (.ok i) ∧
      (b.toScheme.toRule digest : Rule σ).identity = Action.ofOutcome (.ok j) ∧
      i.coreHash = j.coreHash ∧
      (a.SameZeros b → i = j) ∧
      (i.ruleHash = j.ruleHash →
        a.SameZeros b ∨ Collision digest (a.hashed digest ++ b.hashed digest)) := by
  refine ⟨_, _, congrArg Action.ofOutcome (ha.identity_eq digest),
    congrArg Action.ofOutcome (hb.identity_eq digest), ?_, fun hzeros => ?_, fun hhash => ?_⟩
  · rw [h.core_eq]
    rfl
  · rw [h.eq_iff.mpr hzeros]
  · exact (eq_or_collision_of_ofTexts digest ha hb hhash).imp_left h.eq_iff.mp

/-- A rule that pays for what is spent, with a zero for its base reward. -/
def spendingOnly (zero : Float) : WeightedUsage :=
  ⟨⟨Dictionary.ofList [("prepaid_card_payment", "/data")], 100, 0, 200,
    "0x0000000000000000000000000000000000000001"⟩, ⟨zero, 2.0, 2.0, 43200⟩⟩

/-- The parameters of the rule, each number but the zero as an integer. -/
def spendingParameters (zero : Json) : UserDefined :=
  Dictionary.ofList
    [("base_reward", zero), ("transaction_factor", .integer 2), ("spend_factor", .integer 2),
      ("duration", .natural 43200)]

/-- The rule can be made with either zero. -/
theorem isBuilt_spendingOnly :
    (weightedUsage (spendingOnly 0.0)).IsBuilt ∧ (weightedUsage (spendingOnly (-0.0))).IsBuilt := by
  have hzero : WeightedUsage.ofParameters (spendingOnly 0.0).core (spendingParameters (.integer 0)) =
      .ok (spendingOnly 0.0) := by
    decide +kernel
  have hminus : WeightedUsage.ofParameters (spendingOnly (-0.0)).core
      (spendingParameters (.real (-0.0))) = .ok (spendingOnly (-0.0)) := by
    decide +kernel
  exact ⟨.weightedUsage hzero, .weightedUsage hminus⟩

/-- The zeros are equal as parameters. -/
theorem hasEqualParameters_spendingOnly :
    (weightedUsage (spendingOnly 0.0)).HasEqualParameters (weightedUsage (spendingOnly (-0.0))) :=
  .weightedUsage ⟨by decide +kernel, by decide +kernel, by decide +kernel, rfl⟩

/-- The two zeros make the same rule hash only if there is a collision. -/
theorem identity_eq_of_hasEqualParameters_zeros :
    (weightedUsage (spendingOnly 0.0)).IsBuilt ∧ (weightedUsage (spendingOnly (-0.0))).IsBuilt ∧
    (weightedUsage (spendingOnly 0.0)).HasEqualParameters (weightedUsage (spendingOnly (-0.0))) ∧
      ∃ i j : RuleIdentity,
        ((spendingOnly 0.0).toScheme.toRule sha256 : Rule Unit).identity =
          Action.ofOutcome (.ok i) ∧
        ((spendingOnly (-0.0)).toScheme.toRule sha256 : Rule Unit).identity =
          Action.ofOutcome (.ok j) ∧
        i.coreHash = j.coreHash ∧
        (i.ruleHash = j.ruleHash → Collision sha256
          ((weightedUsage (spendingOnly 0.0)).hashed sha256 ++
            (weightedUsage (spendingOnly (-0.0))).hashed sha256)) := by
  obtain ⟨hzero, hminus⟩ := isBuilt_spendingOnly
  obtain ⟨i, j, hi, hj, hcore, -, hhash⟩ :=
    identity_eq_of_hasEqualParameters sha256 hzero hminus hasEqualParameters_spendingOnly
  refine ⟨hzero, hminus, hasEqualParameters_spendingOnly, i, j, hi, hj, hcore, fun h => ?_⟩
  exact (hhash h).resolve_left fun hzeros =>
    absurd (hasEqualParameters_spendingOnly.eq_iff.mpr hzeros) (by decide +kernel)

/-- **Rules with equal parameters can have different identities**, for the sign of a zero. -/
theorem identity_depends_on_zero :
    (weightedUsage (spendingOnly 0.0)).IsBuilt ∧ (weightedUsage (spendingOnly (-0.0))).IsBuilt ∧
    (weightedUsage (spendingOnly 0.0)).HasEqualParameters (weightedUsage (spendingOnly (-0.0))) ∧
      ∃ i j : RuleIdentity,
        ((spendingOnly 0.0).toScheme.toRule sha256 : Rule Unit).identity =
          Action.ofOutcome (.ok i) ∧
        ((spendingOnly (-0.0)).toScheme.toRule sha256 : Rule Unit).identity =
          Action.ofOutcome (.ok j) ∧
        i.userDefinedHash ≠ j.userDefinedHash := by
  obtain ⟨hzero, hminus⟩ := isBuilt_spendingOnly
  refine ⟨hzero, hminus, hasEqualParameters_spendingOnly, _, _,
    congrArg Action.ofOutcome (hzero.identity_eq sha256),
    congrArg Action.ofOutcome (hminus.identity_eq sha256), ?_⟩
  show (sha256 _).hex ≠ (sha256 _).hex
  decide +kernel

end BuiltIn

end Rewards
