/-
What validation reports.

The conditions that parameters have to meet are listed here apart from the code that checks
them, each stated of the texts and numbers themselves: what an address or the name of a table
looks like is said character by character, and a recogniser is shown to accept exactly that.
Validation goes through the conditions in the order of the list.  Every part of its report is
one condition with the item for it (`map_filter_cons`), so the report as a whole is the list of the
conditions that are not met, each of them once and whatever the others come to.

The conditions on core parameters are the head of those on a document.  So core parameters
that pass within a document pass on their own, and the registry, which looks at nothing else
before it calls a constructor, lets them through.
-/
import Rewards.Proofs.Dictionary
import Rewards.Proofs.Digest.Spelling
import Rewards.Proofs.Outcome
import Rewards.Proofs.Query.Collection
import Rewards.Rule.Registry

namespace Rewards

/-! ### Forms of text -/

/-- `0x` and forty hexadecimal digits, with nothing before or after them. -/
def IsAddress (s : String) : Prop :=
  ∃ digits : List Char, s.toList = '0' :: 'x' :: digits ∧ digits.length = 40 ∧
    ∀ c ∈ digits, ('0' ≤ c ∧ c ≤ '9') ∨ ('a' ≤ c ∧ c ≤ 'f') ∨ ('A' ≤ c ∧ c ≤ 'F')

/-- A text with a character that is not blank. -/
def HasText (s : String) : Prop :=
  ∃ c ∈ s.toList, Text.isBlank c = false

theorem isAddress_iff {s : String} : Text.isAddress s = true ↔ IsAddress s := by
  have hdigits : ∀ digits : List Char,
      (decide (digits.length = 40) && digits.all Hex.isDigit) = true ↔
        digits.length = 40 ∧
          ∀ c ∈ digits, ('0' ≤ c ∧ c ≤ '9') ∨ ('a' ≤ c ∧ c ≤ 'f') ∨ ('A' ≤ c ∧ c ≤ 'F') := by
    intro digits
    simp only [Bool.and_eq_true, decide_eq_true_eq, List.all_eq_true, isHexDigit_iff]
  unfold Text.isAddress IsAddress
  constructor
  · intro h
    split at h
    next digits htext => exact ⟨digits, htext, (hdigits digits).mp h⟩
    next => cases h
  · rintro ⟨digits, htext, h⟩
    rw [htext]
    exact (hdigits digits).mpr h

theorem isIdentifier_iff {s : String} : Text.isIdentifier s = true ↔ IsRelationName s := by
  unfold Text.isIdentifier
  cases htext : s.toList with
  | nil =>
      constructor
      · intro h
        cases h
      · rintro ⟨⟨c, hc, -⟩, -⟩
        rw [htext] at hc
        cases hc
  | cons c rest =>
      simp only [Bool.and_eq_true, List.all_eq_true, isIdentifierStart_iff, isIdentifierChar_iff]
      constructor
      · rintro ⟨hstart, hrest⟩
        refine ⟨⟨c, by simp [htext], hstart⟩, fun d hd => ?_⟩
        rw [htext] at hd
        rcases List.mem_cons.mp hd with rfl | hd
        · exact hstart.imp_right .inl
        · exact hrest d hd
      · rintro ⟨⟨d, hd, hstart⟩, hall⟩
        rw [htext] at hd
        obtain rfl : c = d := by simpa using hd
        exact ⟨hstart, fun d hd => hall d (by rw [htext]; exact List.mem_cons_of_mem _ hd)⟩

theorem allBlank_iff {s : String} : Text.allBlank s = true ↔ ¬ HasText s := by
  simp [Text.allBlank, HasText]

instance (s : String) : Decidable (IsAddress s) := decidable_of_iff _ isAddress_iff

instance (s : String) : Decidable (IsRelationName s) := decidable_of_iff _ isIdentifier_iff

instance (s : String) : Decidable (HasText s) :=
  inferInstanceAs (Decidable (∃ c ∈ s.toList, Text.isBlank c = false))

-- a line break at the end is one character too many
example : IsAddress "0x00000000000000000000000000000000000000aF" ∧
    ¬ IsAddress "0x00000000000000000000000000000000000000aF\n" := by
  decide +kernel

/-! ### The conditions -/

/-- A condition on core parameters. -/
inductive CoreCondition where
  /-- A cycle has blocks. -/
  | cycleLength
  /-- The validity window has blocks. -/
  | window
  /-- The token is an address. -/
  | token
  /-- There is a table. -/
  | tables
  /-- A table has a lower-case name. -/
  | table (name : String)
  /-- The location of a table is not blank. -/
  | location (table location : String)
deriving DecidableEq

/-- A condition on a document. -/
inductive DocumentCondition where
  /-- A condition on its core parameters. -/
  | core (condition : CoreCondition)
  /-- The program is not blank. -/
  | program
  /-- A cycle is asked for. -/
  | cycles
  /-- The rule is not blank if it is named. -/
  | rule
deriving DecidableEq

namespace CoreParameters

/-- What a condition says of core parameters. -/
def Meets (core : CoreParameters) : CoreCondition → Prop
  | .cycleLength => 0 < core.cycleLength
  | .window => core.validFrom ≤ core.validTo
  | .token => IsAddress core.token
  | .tables => core.locations.entries ≠ []
  | .table name => IsRelationName name
  | .location _ location => HasText location

instance (core : CoreParameters) : DecidablePred core.Meets
  | .cycleLength => inferInstanceAs (Decidable (0 < core.cycleLength))
  | .window => inferInstanceAs (Decidable (core.validFrom ≤ core.validTo))
  | .token => inferInstanceAs (Decidable (IsAddress core.token))
  | .tables => inferInstanceAs (Decidable (core.locations.entries ≠ []))
  | .table name => inferInstanceAs (Decidable (IsRelationName name))
  | .location _ location => inferInstanceAs (Decidable (HasText location))

/-- The item of a report for a condition. -/
def item (core : CoreParameters) : CoreCondition → String
  | .cycleLength => "payment_cycle_length must be > 0"
  | .window => "valid_from (" ++ wordText core.validFrom ++ ") must not be after valid_to (" ++
      wordText core.validTo ++ ")"
  | .token => "token '" ++ core.token ++ "' is not a 0x-prefixed 40 hex digit address"
  | .tables => "subgraph_config_location must map at least one table"
  | .table name => "subgraph_config_location: '" ++ name ++ "' is not a lowercase table name"
  | .location table _ => "subgraph_config_location: empty location for '" ++ table ++ "'"

/-- The two conditions on the entry of a table. -/
def entryConditions (e : String × String) : List CoreCondition :=
  [.table e.1, .location e.1 e.2]

/-- The conditions on core parameters, in the order in which they are reported. -/
def conditions (core : CoreParameters) : List CoreCondition :=
  .cycleLength :: .window :: .token :: .tables ::
    core.locations.entries.flatMap entryConditions

/-- The conditions that core parameters do not meet. -/
def violated (core : CoreParameters) : List CoreCondition :=
  core.conditions.filter fun c => ¬ core.Meets c

/-- Core parameters as they have to be. -/
structure IsValid (core : CoreParameters) : Prop where
  cycleLength : 0 < core.cycleLength
  window : core.validFrom ≤ core.validTo
  token : IsAddress core.token
  tables : core.locations.entries ≠ []
  table : ∀ e ∈ core.locations.entries, IsRelationName e.1
  location : ∀ e ∈ core.locations.entries, HasText e.2

end CoreParameters

namespace ParameterDocument

/-- What a condition says of a document. -/
def Meets (document : ParameterDocument) : DocumentCondition → Prop
  | .core condition => document.core.Meets condition
  | .program => HasText document.run.programId
  | .cycles => 1 ≤ document.run.cycles
  | .rule => ∀ name ∈ document.rule, HasText name

instance (document : ParameterDocument) : DecidablePred document.Meets
  | .core condition => inferInstanceAs (Decidable (document.core.Meets condition))
  | .program => inferInstanceAs (Decidable (HasText document.run.programId))
  | .cycles => inferInstanceAs (Decidable (1 ≤ document.run.cycles))
  | .rule => inferInstanceAs (Decidable (∀ name ∈ document.rule, HasText name))

/-- The item of a report for a condition. -/
def item (document : ParameterDocument) : DocumentCondition → String
  | .core condition => document.core.item condition
  | .program => "run.reward_program_id must not be empty"
  | .cycles => "run.cycles must be at least 1"
  | .rule => "rule must not be empty when given"

/-- The conditions on a document, in the order in which they are reported. -/
def conditions (document : ParameterDocument) : List DocumentCondition :=
  document.core.conditions.map .core ++ ([.program, .cycles, .rule] : List DocumentCondition)

/-- The conditions that a document does not meet. -/
def violated (document : ParameterDocument) : List DocumentCondition :=
  document.conditions.filter fun c => ¬ document.Meets c

/-- A document as it has to be. -/
structure IsValid (document : ParameterDocument) : Prop where
  core : document.core.IsValid
  program : HasText document.run.programId
  cycles : 1 ≤ document.run.cycles
  rule : ∀ name ∈ document.rule, HasText name

end ParameterDocument

/-! ### One condition, one item -/

section
variable {γ : Type} {meets : γ → Prop} [DecidablePred meets] {item : γ → String}

/-- A condition in front of others has an item in front of theirs if it is violated. -/
theorem map_filter_cons (c : γ) (rest : List γ) {violated : Bool}
    (h : violated = true ↔ ¬ meets c) :
    ((c :: rest).filter fun c => ¬ meets c).map item =
      itemIf violated (item c) ++ (rest.filter fun c => ¬ meets c).map item := by
  by_cases hmeets : meets c
  · have hfalse : violated = false := by simpa [hmeets] using h
    simp [itemIf, hfalse, hmeets]
  · have htrue : violated = true := h.mpr hmeets
    simp [itemIf, htrue, hmeets]

theorem filter_not_eq_nil_iff {l : List γ} :
    (l.filter fun c => ¬ meets c) = [] ↔ ∀ c ∈ l, meets c := by
  simp [List.filter_eq_nil_iff]

end

theorem report_eq_ok_iff {items : List String} : report items = .ok () ↔ items = [] := by
  cases items with
  | nil => exact ⟨fun _ => rfl, fun _ => rfl⟩
  | cons item rest => exact ⟨nofun, nofun⟩

theorem report_map_of_ne_nil {γ : Type} {violated : List γ} {item : γ → String}
    (h : violated ≠ []) : report (violated.map item) = .error (.configuration
      ("parameter validation failed:\n  - " ++ "\n  - ".intercalate (violated.map item))) := by
  rw [report, if_neg (by simpa using h)]

namespace CoreParameters

variable (core : CoreParameters)

theorem locationItems_eq (e : String × String) :
    locationItems e.1 e.2 =
      ((entryConditions e).filter fun c => ¬ core.Meets c).map core.item := by
  have htable : (!Text.isIdentifier e.1) = true ↔ ¬ core.Meets (.table e.1) := by
    rw [Meets, ← isIdentifier_iff, Bool.not_eq_true', Bool.not_eq_true]
  have hlocation : Text.allBlank e.2 = true ↔ ¬ core.Meets (.location e.1 e.2) := allBlank_iff
  rw [entryConditions, map_filter_cons _ _ htable, map_filter_cons _ _ hlocation]
  rw [locationItems, List.filter_nil, List.map_nil, List.append_nil]
  rfl

/-- The report on core parameters lists the conditions that they do not meet. -/
theorem items_eq : core.items = core.violated.map core.item := by
  have hlength : decide (core.cycleLength = 0) = true ↔ ¬ core.Meets .cycleLength := by
    rw [Meets, decide_eq_true_eq, UInt64.pos_iff_ne_zero, not_not]
  have hwindow : decide (core.validTo < core.validFrom) = true ↔ ¬ core.Meets .window := by
    rw [Meets, decide_eq_true_eq, UInt64.not_le]
  have htoken : (!Text.isAddress core.token) = true ↔ ¬ core.Meets .token := by
    rw [Meets, ← isAddress_iff, Bool.not_eq_true', Bool.not_eq_true]
  have htables : core.locations.isEmpty = true ↔ ¬ core.Meets .tables := by
    rw [Meets, not_not, Dictionary.isEmpty, List.isEmpty_iff]
  have hentries : ((core.locations.entries.flatMap entryConditions).filter
      fun c => ¬ core.Meets c).map core.item =
        core.locations.entries.flatMap fun e => locationItems e.1 e.2 := by
    simp only [List.filter_flatMap, List.map_flatMap, locationItems_eq core]
  rw [violated, conditions, map_filter_cons _ _ hlength, map_filter_cons _ _ hwindow,
    map_filter_cons _ _ htoken, map_filter_cons _ _ htables, hentries]
  simp only [items, List.append_assoc]
  rfl

theorem isValid_iff : core.IsValid ↔ ∀ c ∈ core.conditions, core.Meets c := by
  have hentries : (∀ c ∈ core.locations.entries.flatMap entryConditions, core.Meets c) ↔
      ∀ e ∈ core.locations.entries, IsRelationName e.1 ∧ HasText e.2 := by
    simp only [List.forall_mem_flatMap, entryConditions, List.forall_mem_cons, List.not_mem_nil,
      false_implies, implies_true, and_true, Meets]
  rw [conditions]
  simp only [List.forall_mem_cons, hentries]
  constructor
  · rintro ⟨hlength, hwindow, htoken, htables, htable, hlocation⟩
    exact ⟨hlength, hwindow, htoken, htables, fun e he => ⟨htable e he, hlocation e he⟩⟩
  · rintro ⟨hlength, hwindow, htoken, htables, hboth⟩
    exact ⟨hlength, hwindow, htoken, htables, fun e he => (hboth e he).1,
      fun e he => (hboth e he).2⟩

/-- No condition is on the list twice: tables have different names. -/
theorem nodup_conditions : core.conditions.Nodup := by
  have hentries : (core.locations.entries.flatMap entryConditions).Nodup := by
    refine List.nodup_flatMap.mpr ⟨fun e _ => by simp [entryConditions], ?_⟩
    refine core.locations.ascending.imp fun {a b} hlt => ?_
    have hne : a.1 ≠ b.1 := fun h => String.lt_irrefl _ (h ▸ hlt)
    simp [Function.onFun, entryConditions, Ne.symm hne]
  simp [conditions, hentries, entryConditions]

end CoreParameters

namespace ParameterDocument

variable (document : ParameterDocument)

/-- The conditions on the core parameters come first. -/
theorem violated_eq : document.violated = document.core.violated.map .core ++
    ([.program, .cycles, .rule].filter fun c => ¬ document.Meets c) := by
  rw [violated, conditions, List.filter_append, List.filter_map]
  rfl

/-- The report on a document lists the conditions that it does not meet. -/
theorem items_eq : document.items = document.violated.map document.item := by
  have hprogram : Text.allBlank document.run.programId = true ↔ ¬ document.Meets .program :=
    allBlank_iff
  have hcycles : decide (document.run.cycles = 0) = true ↔ ¬ document.Meets .cycles := by
    have hpos : 1 ≤ document.run.cycles ↔ document.run.cycles ≠ 0 := by
      rw [UInt32.le_iff_toNat_le, ne_eq, ← UInt32.toNat_inj]
      exact Nat.one_le_iff_ne_zero
    rw [Meets, decide_eq_true_eq, hpos, not_not]
  have hrule : document.rule.any Text.allBlank = true ↔ ¬ document.Meets .rule := by
    cases hname : document.rule <;> simp [Meets, hname, allBlank_iff]
  have hcore : (document.core.violated.map DocumentCondition.core).map document.item =
      document.core.items := by
    rw [CoreParameters.items_eq, List.map_map]
    rfl
  rw [violated_eq, List.map_append, hcore, map_filter_cons _ _ hprogram,
    map_filter_cons _ _ hcycles, map_filter_cons _ _ hrule]
  simp only [items, item, List.append_assoc, List.filter_nil, List.map_nil, List.append_nil]

theorem isValid_iff : document.IsValid ↔ ∀ c ∈ document.conditions, document.Meets c := by
  have hcore : (∀ c ∈ document.core.conditions.map DocumentCondition.core, document.Meets c) ↔
      document.core.IsValid := by
    rw [CoreParameters.isValid_iff, List.forall_mem_map]
    rfl
  rw [conditions, List.forall_mem_append, hcore]
  simp only [List.forall_mem_cons, List.not_mem_nil, false_implies, implies_true, and_true]
  constructor
  · rintro ⟨hvalid, hprogram, hcycles, hrule⟩
    exact ⟨hvalid, hprogram, hcycles, hrule⟩
  · rintro ⟨hvalid, hprogram, hcycles, hrule⟩
    exact ⟨hvalid, hprogram, hcycles, hrule⟩

theorem nodup_conditions : document.conditions.Nodup := by
  have hcore : (document.core.conditions.map DocumentCondition.core).Nodup :=
    document.core.nodup_conditions.map fun a b h => by cases h; rfl
  refine List.Nodup.append hcore (by simp) ?_
  simp [List.Disjoint]

end ParameterDocument

/-! ### What is accepted, and what is said of the rest -/

theorem CoreParameters.violated_eq_nil_iff {core : CoreParameters} :
    core.violated = [] ↔ core.IsValid := by
  rw [violated, filter_not_eq_nil_iff, isValid_iff]

theorem ParameterDocument.violated_eq_nil_iff {document : ParameterDocument} :
    document.violated = [] ↔ document.IsValid := by
  rw [violated, filter_not_eq_nil_iff, isValid_iff]

theorem CoreParameters.validate_eq_ok_iff {core : CoreParameters} :
    core.validate = .ok () ↔ core.IsValid := by
  rw [validate, items_eq, report_eq_ok_iff, List.map_eq_nil_iff, violated_eq_nil_iff]

theorem ParameterDocument.validate_eq_ok_iff {document : ParameterDocument} :
    document.validate = .ok () ↔ document.IsValid := by
  rw [validate, items_eq, report_eq_ok_iff, List.map_eq_nil_iff, violated_eq_nil_iff]

/-- Parameters that are valid reach the constructor of a registered name. -/
theorem Registry.create_of_isValid {σ : Type} {registry : Registry σ} {name : String}
    {constructor : RuleConstructor σ} {core : CoreParameters} {userDefined : UserDefined}
    (hname : registry.constructors.get? name = some constructor) (h : core.IsValid) :
    registry.create name core userDefined = constructor core userDefined := by
  rw [create, hname]
  simp only [CoreParameters.validate_eq_ok_iff.mpr h, Outcome.ok_bind]

/--
**Validation is complete and exact.**  A document passes exactly if it is valid.  Otherwise the
problem lists the conditions that are violated, each of them once and in the order of the
conditions, of which those on the core parameters come first.  The core parameters on their own
have exactly these first ones as their report, so a registry takes them from every document
that passes.
-/
theorem ParameterDocument.validate_reports_each_violation (document : ParameterDocument) :
    (document.validate = .ok () ↔ document.IsValid) ∧
    (¬ document.IsValid → document.validate = .error (.configuration
      ("parameter validation failed:\n  - " ++
        "\n  - ".intercalate (document.violated.map document.item)))) ∧
    document.conditions.Nodup ∧
    document.violated.map document.item =
      document.core.violated.map document.core.item ++
        (([.program, .cycles, .rule].filter fun c => ¬ document.Meets c).map document.item) ∧
    (document.core.validate = .ok () ↔ document.core.IsValid) ∧
    (¬ document.core.IsValid → document.core.validate = .error (.configuration
      ("parameter validation failed:\n  - " ++
        "\n  - ".intercalate (document.core.violated.map document.core.item)))) ∧
    (document.validate = .ok () → ∀ (σ : Type) (registry : Registry σ) (name : String)
      (constructor : RuleConstructor σ) (userDefined : UserDefined),
      registry.constructors.get? name = some constructor →
        registry.create name document.core userDefined = constructor document.core userDefined) := by
  refine ⟨validate_eq_ok_iff, ?_, document.nodup_conditions, ?_,
    CoreParameters.validate_eq_ok_iff, ?_, ?_⟩
  · intro hinvalid
    rw [validate, items_eq, report_map_of_ne_nil (mt violated_eq_nil_iff.mp hinvalid)]
  · rw [violated_eq, List.map_append, List.map_map]
    rfl
  · intro hinvalid
    rw [CoreParameters.validate, CoreParameters.items_eq,
      report_map_of_ne_nil (mt CoreParameters.violated_eq_nil_iff.mp hinvalid)]
  · intro hok σ registry name constructor userDefined hname
    exact Registry.create_of_isValid hname (validate_eq_ok_iff.mp hok).core

end Rewards
