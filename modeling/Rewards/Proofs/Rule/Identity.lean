/-
The identity of a rule tells configurations apart.

What is digested for a rule is the canonical text of its core parameters, that of its own
parameters, and the two digests one after the other.  All digests are of the same length,
so the last text falls apart in one way only, and a canonical text determines the value
that it is of.  The name of the rule is in none of the three, but no two rules have the same
names of parameters.  So rules with the same identity are the same, or two of the texts
collide.

Nothing is assumed of the digest; parameters can always be written, because a rule is
not built from numbers that are not finite.
-/
import Mathlib
import Rewards.Proofs.Digest
import Rewards.Proofs.Json.Canonical
import Rewards.Proofs.Outcome
import Rewards.Proofs.Utf8
import Rewards.Rule.Registry

namespace Rewards

/-! ### Core parameters -/

namespace CoreParameters

theorem isWritable_toJson (core : CoreParameters) : core.toJson.isWritable = true := by
  have hlocations : (core.locations.toJson Json.text).isWritable = true := by
    rw [Dictionary.toJson, Json.isWritable_object_iff]
    exact List.forall_mem_map.mpr fun _ _ => rfl
  rw [toJson, Json.isWritable_object_iff]
  simp only [List.forall_mem_cons, List.not_mem_nil, false_imp_iff, implies_true, and_true]
  exact ⟨hlocations, Word.holds_toNat _, Word.holds_toNat _, Word.holds_toNat _, rfl⟩

/-- Core parameters are the same if their objects are. -/
theorem eq_of_same {c d : CoreParameters} (h : Json.Same (· = ·) c.toJson d.toJson) : c = d := by
  have hlocations := Json.eq_of_same_toJson (fun _ _ => Json.Same.text_inv)
    (h.member "subgraph_config_location" rfl rfl)
  have hlength := h.word_member "payment_cycle_length" rfl rfl
  have hfrom := h.word_member "valid_from" rfl rfl
  have hto := h.word_member "valid_to" rfl rfl
  have htoken := (h.member "token" rfl rfl).text_inv
  cases c
  cases d
  simp_all

end CoreParameters

/-! ### Two texts and their digests -/

namespace Identity

variable (digest : List UInt8 → Digest)

/-- The bytes of two digests in hexadecimal, one after the other. -/
def joint (a b : Digest) : List UInt8 :=
  utf8 (a.hex ++ b.hex)

/-- The strings that are digested for core parameters and user-defined ones. -/
def strings (core userDefined : Json) : List (List UInt8) :=
  [utf8 core.canonical, utf8 userDefined.canonical,
    joint (digest (utf8 core.canonical)) (digest (utf8 userDefined.canonical))]

/-- The identity of core parameters and user-defined ones. -/
def ofTexts (core userDefined : Json) : RuleIdentity :=
  let coreDigest := digest (utf8 core.canonical)
  let userDefinedDigest := digest (utf8 userDefined.canonical)
  ⟨coreDigest.hex, userDefinedDigest.hex, (digest (joint coreDigest userDefinedDigest)).hex⟩

theorem joint_inj {a b c d : Digest} (h : joint a b = joint c d) : a = c ∧ b = d := by
  have hchars := congrArg String.toList (utf8_injective h)
  rw [String.toList_append, String.toList_append] at hchars
  have hlength : a.hex.toList.length = c.hex.toList.length := by
    rw [Digest.toList_hex, Digest.toList_hex, Hex.length_encode, Hex.length_encode, a.length_eq,
      c.length_eq]
  obtain ⟨hac, hbd⟩ := List.append_inj hchars hlength
  exact ⟨Digest.hex_injective (String.toList_inj.mp hac),
    Digest.hex_injective (String.toList_inj.mp hbd)⟩

variable {digest}

/-- **With the same rule hash both texts are the same**, or there is a collision. -/
theorem canonical_eq_or_collision {core core' userDefined userDefined' : Json}
    (h : (ofTexts digest core userDefined).ruleHash =
      (ofTexts digest core' userDefined').ruleHash) :
    (core.canonical = core'.canonical ∧ userDefined.canonical = userDefined'.canonical) ∨
      Collision digest (strings digest core userDefined ++ strings digest core' userDefined') := by
  have heq : ∀ {x y : List UInt8}, x ∈ strings digest core userDefined →
      y ∈ strings digest core' userDefined' → digest x = digest y → x = y ∨
        Collision digest (strings digest core userDefined ++ strings digest core' userDefined') :=
    fun hx hy => Collision.eq_or (List.mem_append_left _ hx) (List.mem_append_right _ hy)
  -- first the two digests are read out of the joined text, then the texts that they are of
  rcases heq (by simp [strings]) (by simp [strings]) (Digest.hex_injective h) with
    hjoint | hcollision
  · obtain ⟨hcore, huser⟩ := joint_inj hjoint
    rcases heq (by simp [strings]) (by simp [strings]) hcore with hcore | hcollision
    · rcases heq (by simp [strings]) (by simp [strings]) huser with huser | hcollision
      · exact Or.inl ⟨utf8_injective hcore, utf8_injective huser⟩
      · exact Or.inr hcollision
    · exact Or.inr hcollision
  · exact Or.inr hcollision

/-- Parameters that are written as a JSON value are identified by it. -/
theorem identity_eq {s : Scheme} {userDefined : Json}
    (h : s.parameters.canonical = .ok userDefined.canonical) :
    s.identity digest = .ok (ofTexts digest s.core.toJson userDefined) := by
  rw [Scheme.identity, valueHash, h]
  show ofCore digest s.core _ = _
  rw [ofCore, coreHash, valueHash, Typed.canonical_ofJson s.core.isWritable_toJson]
  rfl

end Identity

/-! ### The parameters of the rules -/

theorem isFinite_of_requireNonNegative {rule key : String} {x : Float}
    (h : requireNonNegative rule key x = .ok ()) : x.isFinite = true := by
  unfold requireNonNegative at h
  split at h
  · rename_i hvalid
    exact (Bool.and_eq_true_iff.mp hvalid).1
  · cases h

namespace WeightedUsageParameters

variable {p q : WeightedUsageParameters}

theorem isWritable_toJson (hbase : p.baseReward.isFinite = true)
    (htransaction : p.transactionFactor.isFinite = true) (hspend : p.spendFactor.isFinite = true) :
    p.toJson.isWritable = true := by
  rw [toJson, Json.isWritable_object_iff]
  simp only [List.forall_mem_cons, List.not_mem_nil, false_imp_iff, implies_true, and_true]
  exact ⟨hbase, htransaction, hspend, Word.holds_toNat _⟩

theorem canonical_typed (h : p.toJson.isWritable = true) :
    p.typed.canonical = .ok p.toJson.canonical := by
  have hmembers := Json.isWritable_object_iff.mp h
  simp only [List.forall_mem_cons] at hmembers
  obtain ⟨hbase, htransaction, hspend, -⟩ := hmembers
  refine Typed.canonical_of_toJson rfl (Typed.toJson_record ?_) h
  exact Typed.fieldsToJson_cons (Typed.toJson_double hbase) <|
    Typed.fieldsToJson_cons (Typed.toJson_double htransaction) <|
    Typed.fieldsToJson_cons (Typed.toJson_double hspend) <|
    Typed.fieldsToJson_cons rfl rfl

theorem eq_of_same (h : Json.Same (· = ·) p.toJson q.toJson) : p = q := by
  have hbase := h.real_member "base_reward" rfl rfl
  have htransaction := h.real_member "transaction_factor" rfl rfl
  have hspend := h.real_member "spend_factor" rfl rfl
  have hduration := h.word_member "duration" rfl rfl
  cases p
  cases q
  simp_all

end WeightedUsageParameters

namespace SafeOwnershipParameters

variable {p q : SafeOwnershipParameters}

theorem isWritable_toJson (hreward : p.rewardPerSafe.isFinite = true)
    (hmax : p.maxRewards.isFinite = true) : p.toJson.isWritable = true := by
  rw [toJson, Json.isWritable_object_iff]
  simp only [List.forall_mem_cons, List.not_mem_nil, false_imp_iff, implies_true, and_true]
  exact ⟨hreward, hmax, Word.holds_toNat _⟩

theorem canonical_typed (h : p.toJson.isWritable = true) :
    p.typed.canonical = .ok p.toJson.canonical := by
  have hmembers := Json.isWritable_object_iff.mp h
  simp only [List.forall_mem_cons] at hmembers
  obtain ⟨hreward, hmax, -⟩ := hmembers
  refine Typed.canonical_of_toJson rfl (Typed.toJson_record ?_) h
  exact Typed.fieldsToJson_cons (Typed.toJson_double hreward) <|
    Typed.fieldsToJson_cons (Typed.toJson_double hmax) <|
    Typed.fieldsToJson_cons rfl rfl

theorem eq_of_same (h : Json.Same (· = ·) p.toJson q.toJson) : p = q := by
  have hreward := h.real_member "reward_per_safe" rfl rfl
  have hmax := h.real_member "max_rewards" rfl rfl
  have hduration := h.word_member "duration" rfl rfl
  cases p
  cases q
  simp_all

end SafeOwnershipParameters

/-- No parameters of one rule are written like those of the other. -/
theorem WeightedUsageParameters.not_same (p : WeightedUsageParameters)
    (q : SafeOwnershipParameters) : ¬ Json.Same (· = ·) p.toJson q.toJson := by
  intro h
  have hmember : true = false := h.isSome_member "base_reward"
  cases hmember

theorem WeightedUsage.isWritable_of_ofParameters {core : CoreParameters} {userDefined : UserDefined}
    {w : WeightedUsage} (h : ofParameters core userDefined = .ok w) :
    w.parameters.toJson.isWritable = true := by
  obtain ⟨p, -, h⟩ := Outcome.bind_eq_ok.mp h
  obtain ⟨_, hbase, h⟩ := Outcome.bind_eq_ok.mp h
  obtain ⟨_, htransaction, h⟩ := Outcome.bind_eq_ok.mp h
  obtain ⟨_, hspend, h⟩ := Outcome.bind_eq_ok.mp h
  obtain rfl := Except.ok.inj h
  exact WeightedUsageParameters.isWritable_toJson (isFinite_of_requireNonNegative hbase)
    (isFinite_of_requireNonNegative htransaction) (isFinite_of_requireNonNegative hspend)

theorem SafeOwnership.isWritable_of_ofParameters {core : CoreParameters} {userDefined : UserDefined}
    {s : SafeOwnership} (h : ofParameters core userDefined = .ok s) :
    s.parameters.toJson.isWritable = true := by
  obtain ⟨p, -, h⟩ := Outcome.bind_eq_ok.mp h
  obtain ⟨_, hreward, h⟩ := Outcome.bind_eq_ok.mp h
  obtain ⟨_, hmax, h⟩ := Outcome.bind_eq_ok.mp h
  obtain rfl := Except.ok.inj h
  exact SafeOwnershipParameters.isWritable_toJson (isFinite_of_requireNonNegative hreward)
    (isFinite_of_requireNonNegative hmax)

/-! ### Rules of this library -/

/-- A rule of this library. -/
inductive BuiltIn where
  | weightedUsage (rule : WeightedUsage)
  | safeOwnership (rule : SafeOwnership)
deriving DecidableEq

namespace BuiltIn

/-- A rule has been made by its constructor, from some parameters. -/
inductive IsBuilt : BuiltIn → Prop
  | weightedUsage {core : CoreParameters} {userDefined : UserDefined} {rule : WeightedUsage}
      (h : WeightedUsage.ofParameters core userDefined = .ok rule) : IsBuilt (.weightedUsage rule)
  | safeOwnership {core : CoreParameters} {userDefined : UserDefined} {rule : SafeOwnership}
      (h : SafeOwnership.ofParameters core userDefined = .ok rule) : IsBuilt (.safeOwnership rule)

def toScheme : BuiltIn → Scheme
  | .weightedUsage rule => rule.toScheme
  | .safeOwnership rule => rule.toScheme

/-- The rule's own parameters as a JSON object. -/
def userDefined : BuiltIn → Json
  | .weightedUsage rule => rule.parameters.toJson
  | .safeOwnership rule => rule.parameters.toJson

variable (digest : List UInt8 → Digest) {a b : BuiltIn}

/-- The strings that are digested for the identity of a rule. -/
def hashed (rule : BuiltIn) : List (List UInt8) :=
  Identity.strings digest rule.toScheme.core.toJson rule.userDefined

theorem IsBuilt.isWritable (h : a.IsBuilt) : a.userDefined.isWritable = true := by
  cases h with
  | weightedUsage h => exact WeightedUsage.isWritable_of_ofParameters h
  | safeOwnership h => exact SafeOwnership.isWritable_of_ofParameters h

/-- A rule that has been made has an identity. -/
theorem IsBuilt.identity_eq (h : a.IsBuilt) : a.toScheme.identity digest =
    .ok (Identity.ofTexts digest a.toScheme.core.toJson a.userDefined) := by
  refine Identity.identity_eq ?_
  cases a with
  | weightedUsage rule => exact WeightedUsageParameters.canonical_typed h.isWritable
  | safeOwnership rule => exact SafeOwnershipParameters.canonical_typed h.isWritable

/-- Rules are the same if both of their objects are. -/
theorem eq_of_same (hcore : a.toScheme.core = b.toScheme.core)
    (huser : Json.Same (· = ·) a.userDefined b.userDefined) : a = b := by
  cases a with
  | weightedUsage v =>
      cases b with
      | weightedUsage w =>
          obtain ⟨core, p⟩ := v
          obtain ⟨core', q⟩ := w
          obtain rfl : core = core' := hcore
          obtain rfl : p = q := WeightedUsageParameters.eq_of_same huser
          rfl
      | safeOwnership w => exact absurd huser (WeightedUsageParameters.not_same _ _)
  | safeOwnership v =>
      cases b with
      | weightedUsage w =>
          have hflipped := huser.symm fun _ _ => Eq.symm
          exact absurd hflipped (WeightedUsageParameters.not_same _ _)
      | safeOwnership w =>
          obtain ⟨core, p⟩ := v
          obtain ⟨core', q⟩ := w
          obtain rfl : core = core' := hcore
          obtain rfl : p = q := SafeOwnershipParameters.eq_of_same huser
          rfl

/-- Rules that have been made are the same if the rule hashes of their texts are. -/
theorem eq_or_collision_of_ofTexts (ha : a.IsBuilt) (hb : b.IsBuilt)
    (h : (Identity.ofTexts digest a.toScheme.core.toJson a.userDefined).ruleHash =
      (Identity.ofTexts digest b.toScheme.core.toJson b.userDefined).ruleHash) :
    a = b ∨ Collision digest (a.hashed digest ++ b.hashed digest) := by
  rcases Identity.canonical_eq_or_collision h with ⟨hcore, huser⟩ | hcollision
  · have hsame := Json.same_of_canonical_eq (CoreParameters.isWritable_toJson _)
      (CoreParameters.isWritable_toJson _) hcore
    exact Or.inl (eq_of_same (CoreParameters.eq_of_same hsame)
      (Json.same_of_canonical_eq ha.isWritable hb.isWritable huser))
  · exact Or.inr hcollision

/--
**The rule hash identifies the configuration.**  Every rule that has been made has an identity,
and rules with the same rule hash are the same: the same rule with the same core parameters and
the same parameters of its own.  Otherwise two different strings with the same digest are among
those that were digested for the two identities.
-/
theorem eq_or_collision_of_ruleHash_eq {σ : Type} (ha : a.IsBuilt) (hb : b.IsBuilt) :
    ∃ i j : RuleIdentity,
      (a.toScheme.toRule digest : Rule σ).identity = Action.ofOutcome (.ok i) ∧
      (b.toScheme.toRule digest : Rule σ).identity = Action.ofOutcome (.ok j) ∧
      (i.ruleHash = j.ruleHash → a = b ∨ Collision digest (a.hashed digest ++ b.hashed digest)) := by
  exact ⟨_, _, congrArg Action.ofOutcome (ha.identity_eq digest),
    congrArg Action.ofOutcome (hb.identity_eq digest), eq_or_collision_of_ofTexts digest ha hb⟩

/-- A rule with one location, whose text looks like the end of it and a second one. -/
def oneLocation : WeightedUsage :=
  ⟨⟨Dictionary.ofList [("a", "b\",\"c\":\"d")], 100, 0, 200, "0x0"⟩, ⟨1.0, 0.5, 0.0, 10⟩⟩

/-- The rule with two locations. -/
def twoLocations : WeightedUsage :=
  ⟨⟨Dictionary.ofList [("c", "d"), ("a", "b")], 100, 0, 200, "0x0"⟩, ⟨1.0, 0.5, 0.0, 10⟩⟩

/-- The parameters of both rules, one of them given as an integer. -/
def ownParameters : UserDefined :=
  Dictionary.ofList
    [("base_reward", .integer 1), ("transaction_factor", .real 0.5), ("spend_factor", .real 0.0),
      ("duration", .natural 10)]

/-- The two rules have the same rule hash only if there is a collision. -/
theorem eq_or_collision_of_ruleHash_eq_locations :
    (weightedUsage oneLocation).IsBuilt ∧ (weightedUsage twoLocations).IsBuilt ∧
      ∃ i j : RuleIdentity,
        (oneLocation.toScheme.toRule sha256 : Rule Unit).identity = Action.ofOutcome (.ok i) ∧
        (twoLocations.toScheme.toRule sha256 : Rule Unit).identity = Action.ofOutcome (.ok j) ∧
        (i.ruleHash = j.ruleHash → Collision sha256
          ((weightedUsage oneLocation).hashed sha256 ++ (weightedUsage twoLocations).hashed sha256)) := by
  have hone : WeightedUsage.ofParameters oneLocation.core ownParameters = .ok oneLocation := by
    decide +kernel
  have htwo : WeightedUsage.ofParameters twoLocations.core ownParameters = .ok twoLocations := by
    decide +kernel
  obtain ⟨i, j, hi, hj, hhash⟩ :=
    eq_or_collision_of_ruleHash_eq sha256 (IsBuilt.weightedUsage hone) (IsBuilt.weightedUsage htwo)
  refine ⟨.weightedUsage hone, .weightedUsage htwo, i, j, hi, hj, fun h => ?_⟩
  exact (hhash h).resolve_left (by decide +kernel)

end BuiltIn

end Rewards
