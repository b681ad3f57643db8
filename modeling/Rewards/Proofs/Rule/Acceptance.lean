/-
Which parameters a rule accepts.

The rules of this library differ in the names of their factors and in nothing else that decides
whether they accept parameters: each asks for its factors and a duration, admits no other keys,
and holds every factor to the same range.  So what is acceptable is said once for any list of
factors (`IsAcceptable`), and the two constructors are two cases of one law (`AcceptsExactly`).

Two checks make the decision between them.  The shape of the parameters is settled by reading a
record of the values, which is taken apart field by field elsewhere; the range is checked of the
doubles that were read.  Both are brought into one form here (`readChecked`), which has the law
by an argument on lists of factors, and each constructor is an instance of it.  Of a JSON number
the range asks no more than that it is not below zero, since as a double it is always finite, an
integer as well.
-/
import Rewards.Proofs.Decimal.Integer
import Rewards.Proofs.Rule.Registry
import Rewards.Proofs.Shape.RoundTrip

namespace Rewards

open Shape
open Shape.Fields (IsField)

/-! ### Parameters that are acceptable -/

/-- The double that a number is read as. -/
def Number.double : Number → Float
  | .integer i => .ofInt i
  | .real x => x

/-- A double that can be a factor: finite and not below zero. -/
def IsFactor (x : Float) : Prop :=
  x.isFinite = true ∧ 0.0 ≤ x

/-- User-defined parameters with factors, a duration and nothing else. -/
structure IsAcceptable (factors : List String) (userDefined : UserDefined) : Prop where
  known : ∀ key ∈ userDefined.keys, key ∈ factors ++ ["duration"]
  factor : ∀ key ∈ factors, ∃ n : Number,
    userDefined.get? key = some (.number n) ∧ IsFactor n.double
  duration : ∃ n < 2 ^ 64, userDefined.get? "duration" = some (.natural n)

/-- The factors and the duration are those that are given. -/
structure HasValues (factors : List String) (userDefined : UserDefined) (doubles : List Float)
    (duration : UInt64) : Prop where
  factor : List.Forall₂ (fun key x => ∃ n : Number,
    userDefined.get? key = some (.number n) ∧ n.double = x) factors doubles
  duration : userDefined.get? "duration" = some (.natural duration.toNat)

/-- A problem with the parameters of a rule, which it names. -/
def NamesRule (name : String) (problem : Problem) : Prop :=
  ∃ text, problem = .configuration (name ++ ": " ++ text)

/--
A constructor accepts parameters with its factors and a duration and no others.  The rule has
the core parameters and the values that were given, and every problem names the rule.  The
registry leaves the decision to the constructor unless the core parameters are at fault.
-/
structure AcceptsExactly {ρ : Type} (construct : CoreParameters → UserDefined → Outcome ρ)
    (toScheme : ρ → Scheme) (name : String) (factors : List String) : Prop where
  exists_iff : ∀ core userDefined, (∃ rule, construct core userDefined = .ok rule) ↔
    IsAcceptable factors userDefined
  values : ∀ core userDefined rule, construct core userDefined = .ok rule →
    (toScheme rule).core = core ∧
      HasValues factors userDefined (toScheme rule).doubles (toScheme rule).duration
  error : ∀ core userDefined problem, construct core userDefined = .error problem →
    NamesRule name problem
  create : ∀ (σ : Type) (digest : List UInt8 → Digest) core userDefined,
    (Registry.builtIn digest : Registry σ).create name core userDefined =
      match core.validate with
      | .error problem => .error problem
      | .ok () => (construct core userDefined).map fun rule => (toScheme rule).toRule digest

/-! ### Numbers as factors -/

/-- A JSON number is finite as a double. -/
theorem Number.isFinite_double {n : Number} (h : n.isWritable = true) :
    n.double.isFinite = true := by
  cases n with
  | integer i => exact Decimal.isFinite_ofInt h
  | real x => exact h

theorem isFactor_double_iff {n : Number} (h : n.isWritable = true) :
    IsFactor n.double ↔ 0.0 ≤ n.double :=
  and_iff_right (Number.isFinite_double h)

theorem isFactor_integer_iff {i : Int} (h : Word.holds i = true) :
    IsFactor (Number.integer i).double ↔ 0 ≤ i :=
  (isFactor_double_iff (n := .integer i) h).trans (Decimal.zero_le_ofInt_iff h)

/-! ### Reading and checking -/

/-- Parameters that are read, and then the factors among them checked one after the other. -/
def readChecked {α : Type} (name : String) (read : Json → Except Mismatch α)
    (factors : List String) (doubles : α → List Float) (userDefined : UserDefined) :
    Outcome α := do
  let p ← readParameters name read userDefined
  forM (factors.zip (doubles p)) fun e => requireNonNegative name e.1 e.2
  return p

section
variable {name key : String} {x : Float} {u : Unit} {problem : Problem}

theorem requireNonNegative_eq_ok_iff : requireNonNegative name key x = .ok u ↔ IsFactor x := by
  have hvalid : (x.isFinite && decide (0.0 ≤ x)) = true ↔ IsFactor x := by
    rw [Bool.and_eq_true, decide_eq_true_eq, IsFactor]
  rw [← hvalid]
  unfold requireNonNegative
  split_ifs with h
  · exact iff_of_true rfl h
  · exact iff_of_false nofun h

theorem namesRule_of_requireNonNegative (h : requireNonNegative name key x = .error problem) :
    NamesRule name problem := by
  unfold requireNonNegative at h
  split at h
  · cases h
  · obtain rfl := Except.error.inj h
    exact ⟨"'" ++ key ++ "' must be a finite non-negative number, got " ++ Typed.floatText x, by
      simp only [String.append_assoc]; rfl⟩

theorem forM_requireNonNegative_eq_ok_iff : ∀ {factors : List (String × Float)},
    (forM factors fun e => requireNonNegative name e.1 e.2) = .ok u ↔
      ∀ e ∈ factors, IsFactor e.2 := by
  intro factors
  induction factors with
  | nil => exact iff_of_true rfl (by simp)
  | cons e rest ih =>
      rw [List.forM_cons, Outcome.bind_eq_ok, List.forall_mem_cons, ← ih]
      simp only [requireNonNegative_eq_ok_iff, exists_and_left, exists_const]

theorem namesRule_of_forM : ∀ {factors : List (String × Float)},
    (forM factors fun e => requireNonNegative name e.1 e.2) = .error problem →
      NamesRule name problem := by
  intro factors
  induction factors with
  | nil => exact nofun
  | cons e rest ih =>
      intro h
      rw [List.forM_cons] at h
      rcases Outcome.bind_eq_error.mp h with h | ⟨_, -, h⟩
      · exact namesRule_of_requireNonNegative h
      · exact ih h

end

/-! ### Values of user-defined parameters -/

section
variable {α : Type} {name : String} {read : Json → Except Mismatch α} {userDefined : UserDefined}
  {problem : Problem}

theorem readParameters_eq_ok_iff {a : α} :
    readParameters name read userDefined = .ok a ↔ read (userDefined.toJson id) = .ok a := by
  unfold readParameters
  cases read (userDefined.toJson id) <;> simp

theorem namesRule_of_readParameters (h : readParameters name read userDefined = .error problem) :
    NamesRule name problem := by
  unfold readParameters at h
  cases hread : read (userDefined.toJson id) with
  | ok a =>
      rw [hread] at h
      cases h
  | error mismatch =>
      rw [hread] at h
      obtain rfl := Except.error.inj h
      exact ⟨"invalid user_defined parameters: " ++ Json.sentence mismatch, by
        simp only [String.append_assoc]; rfl⟩

theorem lastMember?_userDefined (key : String) :
    Json.lastMember? key (userDefined.entries.map fun e => (e.1, id e.2)) =
      userDefined.get? key := by
  rw [Json.lastMember?_toJson, Option.map_id]
  rfl

theorem isField_real_iff {v? : Option Json} {x : Float} :
    IsField Source.real none v? x ↔ ∃ n : Number, v? = some (.number n) ∧ n.double = x := by
  constructor
  · intro h
    obtain ⟨v, rfl, hread⟩ := h.exists_of_required
    rcases real_eq_ok_iff.mp hread with rfl | ⟨i, rfl, rfl⟩
    · exact ⟨.real x, rfl, rfl⟩
    · exact ⟨.integer i, rfl, rfl⟩
  · rintro ⟨n, rfl, rfl⟩
    cases n <;> rfl

/-- The factors and the duration as fields of a record. -/
theorem hasValues_iff {factors : List String} {doubles : List Float} {duration : UInt64} :
    HasValues factors userDefined doubles duration ↔
      List.Forall₂ (fun key x => IsField Source.real none (userDefined.get? key) x)
        factors doubles ∧
      IsField word none (userDefined.get? "duration") duration := by
  simp only [isField_real_iff, isField_word_iff]
  constructor
  · rintro ⟨hfactor, hduration⟩
    exact ⟨hfactor, hduration⟩
  · rintro ⟨hfactor, hduration⟩
    exact ⟨hfactor, hduration⟩

theorem isSome_get?_iff {key : String} :
    (userDefined.get? key).isSome = true ↔ key ∈ userDefined.keys := by
  rw [Dictionary.mem_keys_iff, Option.isSome_iff_exists]

/-- Values that each of some keys has, taken together. -/
theorem exists_forall₂_iff {β γ : Type} {R : β → γ → Prop} {l : List β} :
    (∃ values, List.Forall₂ R l values) ↔ ∀ b ∈ l, ∃ c, R b c := by
  induction l with
  | nil => exact iff_of_true ⟨[], .nil⟩ (by simp)
  | cons b rest ih =>
      rw [List.forall_mem_cons, ← ih]
      simp only [List.forall₂_cons_left_iff]
      constructor
      · rintro ⟨_, c, values, hc, hvalues, -⟩
        exact ⟨⟨c, hc⟩, values, hvalues⟩
      · rintro ⟨⟨c, hc⟩, values, hvalues⟩
        exact ⟨_, c, values, hc, hvalues, rfl⟩

/-- A record of factors and a duration: what it is read from, and that it can have any values. -/
structure ReadsFactors (read : Json → Except Mismatch α) (factors : List String)
    (doubles : α → List Float) (duration : α → UInt64) : Prop where
  read_iff : ∀ {userDefined : UserDefined} {p : α}, read (userDefined.toJson id) = .ok p ↔
    (∀ key ∈ userDefined.keys, key ∈ factors ++ ["duration"]) ∧
      HasValues factors userDefined (doubles p) (duration p)
  surjective : ∀ {values : List Float} (d : UInt64), factors.length = values.length →
    ∃ p, doubles p = values ∧ duration p = d

variable {factors : List String} {doubles : α → List Float} {duration : α → UInt64}

theorem readChecked_eq_ok_iff (h : ReadsFactors read factors doubles duration) {p : α} :
    readChecked name read factors doubles userDefined = .ok p ↔
      (∀ key ∈ userDefined.keys, key ∈ factors ++ ["duration"]) ∧
        HasValues factors userDefined (doubles p) (duration p) ∧
        List.Forall₂ (fun _ x => IsFactor x) factors (doubles p) := by
  have hstep : readChecked name read factors doubles userDefined = .ok p ↔
      readParameters name read userDefined = .ok p ∧
        ∀ e ∈ factors.zip (doubles p), IsFactor e.2 := by
    rw [readChecked, Outcome.bind_eq_ok]
    simp only [Outcome.bind_eq_ok, forM_requireNonNegative_eq_ok_iff]
    constructor
    · rintro ⟨q, hq, _, hrange, hp⟩
      obtain rfl := Except.ok.inj hp
      exact ⟨hq, hrange⟩
    · rintro ⟨hp, hrange⟩
      exact ⟨p, hp, (), hrange, rfl⟩
  rw [hstep, readParameters_eq_ok_iff, h.read_iff, and_assoc]
  refine and_congr_right fun _ => and_congr_right fun hvalues => ?_
  rw [List.forall₂_iff_zip]
  constructor
  · intro hrange
    exact ⟨hvalues.factor.length_eq, fun {key x} hmem => hrange (key, x) hmem⟩
  · rintro ⟨-, hrange⟩ ⟨key, x⟩ hmem
    exact hrange hmem

/-- **Parameters are read and pass all checks exactly if they are acceptable.** -/
theorem exists_readChecked_iff (h : ReadsFactors read factors doubles duration) :
    (∃ p, readChecked name read factors doubles userDefined = .ok p) ↔
      IsAcceptable factors userDefined := by
  simp only [readChecked_eq_ok_iff h]
  constructor
  · rintro ⟨p, hknown, hvalues, hrange⟩
    have hboth : List.Forall₂ (fun key x => ∃ n : Number, userDefined.get? key = some (.number n) ∧
        n.double = x ∧ IsFactor x) factors (doubles p) :=
      List.Forall₂.mp (fun _ _ ⟨n, hget, hx⟩ hfactor => ⟨n, hget, hx, hfactor⟩) hvalues.factor hrange
    refine ⟨hknown, fun key hkey => ?_, _, (duration p).toNat_lt, hvalues.duration⟩
    obtain ⟨_, n, hget, rfl, hfactor⟩ := exists_forall₂_iff.mp ⟨_, hboth⟩ key hkey
    exact ⟨n, hget, hfactor⟩
  · rintro ⟨hknown, hfactor, n, hlt, hduration⟩
    obtain ⟨numbers, hnumbers⟩ := exists_forall₂_iff.mpr hfactor
    have hlength : factors.length = (numbers.map Number.double).length := by
      rw [List.length_map, hnumbers.length_eq]
    obtain ⟨p, hdoubles, hword⟩ := h.surjective (UInt64.ofNat n) hlength
    have hn : (UInt64.ofNat n).toNat = n := UInt64.toNat_ofNat_of_lt' hlt
    refine ⟨p, hknown, ⟨?_, by rw [hword, hn, hduration]⟩, ?_⟩
    · rw [hdoubles, List.forall₂_map_right_iff]
      exact hnumbers.imp fun key m hm => ⟨m, hm.1, rfl⟩
    · rw [hdoubles, List.forall₂_map_right_iff]
      exact hnumbers.imp fun key m hm => hm.2

/-- A problem of reading or of a check names the rule. -/
theorem namesRule_of_readChecked
    (h : readChecked name read factors doubles userDefined = .error problem) :
    NamesRule name problem := by
  rcases Outcome.bind_eq_error.mp h with h | ⟨p, -, h⟩
  · exact namesRule_of_readParameters h
  rcases Outcome.bind_eq_error.mp h with h | ⟨_, -, h⟩
  · exact namesRule_of_forM h
  · cases h

end

/-! ### The two constructors -/

namespace WeightedUsage

/-- The keys of the factors. -/
def factors : List String :=
  ["base_reward", "transaction_factor", "spend_factor"]

theorem readsFactors : ReadsFactors WeightedUsageParameters.read factors
    (fun p => [p.baseReward, p.transactionFactor, p.spendFactor])
    WeightedUsageParameters.duration where
  read_iff := by
    intro userDefined p
    rw [Dictionary.toJson, WeightedUsageParameters.read_object_iff, hasValues_iff]
    simp only [lastMember?_userDefined, isSome_get?_iff, factors, List.forall₂_cons,
      List.forall₂_nil_left_iff, and_true, and_assoc, List.cons_append, List.nil_append]
  surjective := by
    intro values d hlength
    obtain ⟨base, transaction, spend, rfl⟩ := List.length_eq_three.mp hlength.symm
    exact ⟨⟨base, transaction, spend, d⟩, rfl, rfl⟩

theorem ofParameters_eq (core : CoreParameters) (userDefined : UserDefined) :
    ofParameters core userDefined =
      mk core <$> readChecked name WeightedUsageParameters.read factors
        (fun p => [p.baseReward, p.transactionFactor, p.spendFactor]) userDefined := by
  unfold ofParameters readChecked
  cases readParameters name WeightedUsageParameters.read userDefined with
  | error problem => rfl
  | ok p =>
      simp only [Outcome.ok_bind, factors, List.zip_cons_cons, List.zip_nil_right, List.forM_cons,
        List.forM_nil, bind_assoc, map_bind, map_pure, pure_bind]

end WeightedUsage

namespace SafeOwnership

/-- The keys of the factors. -/
def factors : List String :=
  ["reward_per_safe", "max_rewards"]

theorem readsFactors : ReadsFactors SafeOwnershipParameters.read factors
    (fun p => [p.rewardPerSafe, p.maxRewards]) SafeOwnershipParameters.duration where
  read_iff := by
    intro userDefined p
    rw [Dictionary.toJson, SafeOwnershipParameters.read_object_iff, hasValues_iff]
    simp only [lastMember?_userDefined, isSome_get?_iff, factors, List.forall₂_cons,
      List.forall₂_nil_left_iff, and_true, and_assoc, List.cons_append, List.nil_append]
  surjective := by
    intro values d hlength
    obtain ⟨reward, most, rfl⟩ := List.length_eq_two.mp hlength.symm
    exact ⟨⟨reward, most, d⟩, rfl, rfl⟩

theorem ofParameters_eq (core : CoreParameters) (userDefined : UserDefined) :
    ofParameters core userDefined =
      mk core <$> readChecked name SafeOwnershipParameters.read factors
        (fun p => [p.rewardPerSafe, p.maxRewards]) userDefined := by
  unfold ofParameters readChecked
  cases readParameters name SafeOwnershipParameters.read userDefined with
  | error problem => rfl
  | ok p =>
      simp only [Outcome.ok_bind, factors, List.zip_cons_cons, List.zip_nil_right, List.forM_cons,
        List.forM_nil, bind_assoc, map_bind, map_pure, pure_bind]

end SafeOwnership

/-- A constructor that reads and checks its parameters accepts exactly those that are acceptable. -/
theorem acceptsExactly {α ρ : Type} {construct : CoreParameters → UserDefined → Outcome ρ}
    {toScheme : ρ → Scheme} {name : String} {factors : List String}
    {read : Json → Except Mismatch α} {doubles : α → List Float} {duration : α → UInt64}
    {make : CoreParameters → α → ρ} (hreads : ReadsFactors read factors doubles duration)
    (hconstruct : ∀ core userDefined, construct core userDefined =
      make core <$> readChecked name read factors doubles userDefined)
    (hmake : ∀ core p, (toScheme (make core p)).core = core ∧
      (toScheme (make core p)).doubles = doubles p ∧
      (toScheme (make core p)).duration = duration p)
    (hname : ∀ (σ : Type) (digest : List UInt8 → Digest),
      (Registry.builtIn digest : Registry σ).constructors.get? name =
        some fun core userDefined => do
          return (toScheme (← construct core userDefined)).toRule digest) :
    AcceptsExactly construct toScheme name factors where
  exists_iff := by
    intro core userDefined
    rw [← exists_readChecked_iff hreads, hconstruct]
    simp only [Outcome.map_eq_ok]
    constructor
    · rintro ⟨_, p, hp, -⟩
      exact ⟨p, hp⟩
    · rintro ⟨p, hp⟩
      exact ⟨_, p, hp, rfl⟩
  values := by
    intro core userDefined rule h
    rw [hconstruct] at h
    obtain ⟨p, hp, rfl⟩ := Outcome.map_eq_ok.mp h
    obtain ⟨hcore, hdoubles, hduration⟩ := hmake core p
    rw [hdoubles, hduration]
    exact ⟨hcore, ((readChecked_eq_ok_iff hreads).mp hp).2.1⟩
  error := by
    intro core userDefined problem h
    rw [hconstruct] at h
    cases hp : readChecked name read factors doubles userDefined with
    | ok p =>
        rw [hp] at h
        cases h
    | error problem' =>
        rw [hp] at h
        obtain rfl := Except.error.inj h
        exact namesRule_of_readChecked hp
  create := by
    intro σ digest core userDefined
    rw [Registry.create, hname]
    cases core.validate with
    | error problem => rfl
    | ok _ =>
        simp only [Outcome.ok_bind]
        cases construct core userDefined <;> rfl

/--
**Parameters are accepted exactly.**  Both rules accept the parameters with their factors, a
duration and nothing else, where a factor is a number that is not below zero and the duration an
integer without a sign that is a word.  Numbers of JSON are finite as doubles, so for a factor
it is enough that the double is not below zero, and for one that is an integer that the integer
is not.
-/
theorem rules_accept_exactly :
    AcceptsExactly WeightedUsage.ofParameters WeightedUsage.toScheme "WeightedUsage"
      ["base_reward", "transaction_factor", "spend_factor"] ∧
    AcceptsExactly SafeOwnership.ofParameters SafeOwnership.toScheme "SafeOwnership"
      ["reward_per_safe", "max_rewards"] ∧
    (∀ n : Number, n.isWritable = true → (IsFactor n.double ↔ 0.0 ≤ n.double)) ∧
    (∀ i : Int, Word.holds i = true → (IsFactor (Number.integer i).double ↔ 0 ≤ i)) := by
  refine ⟨?_, ?_, fun n h => isFactor_double_iff h, fun i h => isFactor_integer_iff h⟩
  · exact acceptsExactly WeightedUsage.readsFactors WeightedUsage.ofParameters_eq
      (fun _ _ => ⟨rfl, rfl, rfl⟩) fun _ _ => rfl
  · exact acceptsExactly SafeOwnership.readsFactors SafeOwnership.ofParameters_eq
      (fun _ _ => ⟨rfl, rfl, rfl⟩) fun _ _ => rfl

end Rewards
