/-
Records that are written and read again.

What is read from the object of a record is the record: every field finds its own value
under its own key.  Conversely, a record that admits no other keys is written as the object
that it was read from, up to the order of members.  What a reader fills in or passes over is
all that comes between the two: the defaults of a selection and a document, a rule that is
given as the absent value, and integers in the place of doubles.

Each record has one lemma that says when it is read from an object, and both directions
follow from that one.
-/
import Mathlib
import Rewards.Identity
import Rewards.Payment
import Rewards.Dataset
import Rewards.Proofs.Json.Members
import Rewards.Proofs.Shape.Values
import Rewards.Rule.SafeOwnership
import Rewards.Rule.WeightedUsage

namespace Rewards

open Shape Shape.Fields

/-! ### Records that admit other keys -/

theorem PaymentRecord.read_object_iff {members : List (String × Json)} {p : PaymentRecord} :
    (read (Json.object members) : Except Mismatch PaymentRecord) = .ok p ↔
      IsField Source.text none (Json.lastMember? "payee" members) p.payee ∧
      IsField Source.real none (Json.lastMember? "amount" members) p.amount ∧
      IsField Source.text none (Json.lastMember? "token" members) p.token ∧
      IsField Source.text none (Json.lastMember? "reward_program_id" members) p.programId ∧
      IsField word none (Json.lastMember? "payment_cycle" members) p.paymentCycle ∧
      IsField word none (Json.lastMember? "valid_from" members) p.validFrom ∧
      IsField word none (Json.lastMember? "valid_to" members) p.validTo := by
  refine ((describes_required _ _).map _ |>.required (by simp)
    |>.required (by simp) |>.required (by simp) |>.required (by simp)
    |>.required (by simp) |>.required (by simp)).record_eq_ok_iff.trans ?_
  cases p
  simp [and_assoc]

theorem PaymentRecord.undoes : Undoes read toJson := by
  intro p
  apply read_object_iff.mpr
  exact ⟨undoes_text _, undoes_real _, undoes_text _, undoes_text _, undoes_word _, undoes_word _,
    undoes_word _⟩

theorem PaymentSummary.read_object_iff {members : List (String × Json)} {s : PaymentSummary} :
    (read (Json.object members) : Except Mismatch PaymentSummary) = .ok s ↔
      IsField Source.real none (Json.lastMember? "total_reward" members) s.totalReward ∧
      IsField count none (Json.lastMember? "unique_payee" members) s.uniquePayees := by
  refine ((describes_required _ _).map _ |>.required (by simp)).record_eq_ok_iff.trans ?_
  cases s
  simp

theorem PaymentSummary.read_toJson {s : PaymentSummary} (h : s.uniquePayees < Word.count 64) :
    (read s.toJson : Except Mismatch PaymentSummary) = .ok s := by
  apply read_object_iff.mpr
  exact ⟨undoes_real _, whole_eq_ok_iff.mpr ⟨rfl, h⟩⟩

theorem RuleIdentity.read_object_iff {members : List (String × Json)} {i : RuleIdentity} :
    (read (Json.object members) : Except Mismatch RuleIdentity) = .ok i ↔
      IsField Source.text none (Json.lastMember? "core_hash" members) i.coreHash ∧
      IsField Source.text none (Json.lastMember? "user_defined_hash" members) i.userDefinedHash ∧
      IsField Source.text none (Json.lastMember? "rule_hash" members) i.ruleHash := by
  refine ((describes_required _ _).map _ |>.required (by simp)
    |>.required (by simp)).record_eq_ok_iff.trans ?_
  cases i
  simp [and_assoc]

theorem RuleIdentity.undoes : Undoes read toJson := by
  intro i
  apply read_object_iff.mpr
  exact ⟨undoes_text _, undoes_text _, undoes_text _⟩

theorem BlockRange.read_object_iff {members : List (String × Json)} {r : BlockRange} :
    (read (Json.object members) : Except Mismatch BlockRange) = .ok r ↔
      IsField word none (Json.lastMember? "min_block" members) r.first ∧
      IsField word none (Json.lastMember? "max_block" members) r.last := by
  refine ((describes_required _ _).map _ |>.required (by simp)).record_eq_ok_iff.trans ?_
  cases r
  simp

theorem BlockRange.undoes : Undoes read toJson := by
  intro r
  apply read_object_iff.mpr
  exact ⟨undoes_word _, undoes_word _⟩

theorem TableConfig.read_object_iff {members : List (String × Json)} {t : TableConfig} :
    (read (Json.object members) : Except Mismatch TableConfig) = .ok t ↔
      IsField (list word) none (Json.lastMember? "partition_sizes" members) t.partitionSizes := by
  refine ((describes_required _ _).map _).record_eq_ok_iff.trans ?_
  cases t
  simp

theorem TableConfig.undoes : Undoes read toJson := by
  intro t
  apply read_object_iff.mpr
  exact undoes_word.list _

theorem DatasetConfig.read_object_iff {members : List (String × Json)} {d : DatasetConfig} :
    (read (Json.object members) : Except Mismatch DatasetConfig) = .ok d ↔
      IsField Source.text none (Json.lastMember? "subgraph" members) d.subgraph ∧
      IsField (dictionary TableConfig.read) none (Json.lastMember? "tables" members) d.tables := by
  refine ((describes_required _ _).map _ |>.required (by simp)).record_eq_ok_iff.trans ?_
  cases d
  simp

theorem DatasetConfig.undoes : Undoes read toJson := by
  intro d
  apply read_object_iff.mpr
  exact ⟨undoes_text _, TableConfig.undoes.dictionary _⟩

theorem LatestExport.read_object_iff {members : List (String × Json)} {l : LatestExport} :
    (read (Json.object members) : Except Mismatch LatestExport) = .ok l ↔
      IsField word none (Json.lastMember? "latest_block" members) l.latestBlock := by
  refine ((describes_required _ _).map _).record_eq_ok_iff.trans ?_
  cases l
  simp

theorem LatestExport.undoes : Undoes read toJson := by
  intro l
  apply read_object_iff.mpr
  exact undoes_word _

/-! ### Records that admit no other keys -/

theorem CoreParameters.read_object_iff {members : List (String × Json)} {core : CoreParameters} :
    (read (Json.object members) : Except Mismatch CoreParameters) = .ok core ↔
      (∀ key, (Json.lastMember? key members).isSome = true → key ∈ ["subgraph_config_location",
        "payment_cycle_length", "valid_from", "valid_to", "token"]) ∧
      IsField (dictionary Source.text) none (Json.lastMember? "subgraph_config_location" members)
        core.locations ∧
      IsField word none (Json.lastMember? "payment_cycle_length" members) core.cycleLength ∧
      IsField word none (Json.lastMember? "valid_from" members) core.validFrom ∧
      IsField word none (Json.lastMember? "valid_to" members) core.validTo ∧
      IsField Source.text none (Json.lastMember? "token" members) core.token := by
  refine ((describes_required _ _).map _ |>.required (by simp)
    |>.required (by simp) |>.required (by simp) |>.required (by simp)).record_eq_ok_iff.trans ?_
  cases core
  simp [and_assoc]

theorem CoreParameters.undoes : Undoes read toJson := by
  intro core
  apply read_object_iff.mpr
  exact ⟨fun _ => Json.isSome_lastMember?_iff.mp, undoes_text.dictionary _, undoes_word _,
    undoes_word _, undoes_word _, undoes_text _⟩

theorem CoreParameters.same_of_read {members : List (String × Json)} {core : CoreParameters}
    (h : (read (Json.object members) : Except Mismatch CoreParameters) = .ok core) :
    Json.Same (· = ·) (.object members) core.toJson := by
  obtain ⟨hknown, hlocations, hlength, hfrom, hto, htoken⟩ := read_object_iff.mp h
  have hword : Restores (· = ·) word fun n => .natural n.toNat := restores_word fun _ => rfl
  apply Json.Same.object_of_fields hknown
  simp only [List.forall_mem_cons]
  exact ⟨restores_text.dictionary.field hlocations, hword.field hlength, hword.field hfrom,
    hword.field hto, restores_text.field htoken, by simp⟩

theorem WeightedUsageParameters.read_object_iff {members : List (String × Json)}
    {p : WeightedUsageParameters} :
    (read (Json.object members) : Except Mismatch WeightedUsageParameters) = .ok p ↔
      (∀ key, (Json.lastMember? key members).isSome = true →
        key ∈ ["base_reward", "transaction_factor", "spend_factor", "duration"]) ∧
      IsField Source.real none (Json.lastMember? "base_reward" members) p.baseReward ∧
      IsField Source.real none (Json.lastMember? "transaction_factor" members)
        p.transactionFactor ∧
      IsField Source.real none (Json.lastMember? "spend_factor" members) p.spendFactor ∧
      IsField word none (Json.lastMember? "duration" members) p.duration := by
  refine ((describes_required _ _).map _ |>.required (by simp)
    |>.required (by simp) |>.required (by simp)).record_eq_ok_iff.trans ?_
  cases p
  simp [and_assoc]

theorem WeightedUsageParameters.undoes : Undoes read toJson := by
  intro p
  apply read_object_iff.mpr
  exact ⟨fun _ => Json.isSome_lastMember?_iff.mp, undoes_real _, undoes_real _, undoes_real _,
    undoes_word _⟩

theorem WeightedUsageParameters.same_of_read {members : List (String × Json)}
    {p : WeightedUsageParameters}
    (h : (read (Json.object members) : Except Mismatch WeightedUsageParameters) = .ok p) :
    Json.Same Rounds (.object members) p.toJson := by
  obtain ⟨hknown, hbase, htransaction, hspend, hduration⟩ := read_object_iff.mp h
  apply Json.Same.object_of_fields hknown
  simp only [List.forall_mem_cons]
  exact ⟨restores_real.field hbase, restores_real.field htransaction, restores_real.field hspend,
    (restores_word Rounds.same).field hduration, by simp⟩

theorem SafeOwnershipParameters.read_object_iff {members : List (String × Json)}
    {p : SafeOwnershipParameters} :
    (read (Json.object members) : Except Mismatch SafeOwnershipParameters) = .ok p ↔
      (∀ key, (Json.lastMember? key members).isSome = true →
        key ∈ ["reward_per_safe", "max_rewards", "duration"]) ∧
      IsField Source.real none (Json.lastMember? "reward_per_safe" members) p.rewardPerSafe ∧
      IsField Source.real none (Json.lastMember? "max_rewards" members) p.maxRewards ∧
      IsField word none (Json.lastMember? "duration" members) p.duration := by
  refine ((describes_required _ _).map _ |>.required (by simp)
    |>.required (by simp)).record_eq_ok_iff.trans ?_
  cases p
  simp [and_assoc]

theorem SafeOwnershipParameters.undoes : Undoes read toJson := by
  intro p
  apply read_object_iff.mpr
  exact ⟨fun _ => Json.isSome_lastMember?_iff.mp, undoes_real _, undoes_real _, undoes_word _⟩

theorem SafeOwnershipParameters.same_of_read {members : List (String × Json)}
    {p : SafeOwnershipParameters}
    (h : (read (Json.object members) : Except Mismatch SafeOwnershipParameters) = .ok p) :
    Json.Same Rounds (.object members) p.toJson := by
  obtain ⟨hknown, hreward, hmax, hduration⟩ := read_object_iff.mp h
  apply Json.Same.object_of_fields hknown
  simp only [List.forall_mem_cons]
  exact ⟨restores_real.field hreward, restores_real.field hmax,
    (restores_word Rounds.same).field hduration, by simp⟩

/-! ### Records with defaults -/

/-- A selection in which the default is filled in: a member that is given comes later and counts. -/
def RunSelection.completed : Json → Json
  | .object members => .object (("cycles", .natural 1) :: members)
  | v => v

/-- The members of a document without a rule that is the absent value, and with the defaults
filled in. -/
def ParameterDocument.completed (members : List (String × Json)) : List (String × Json) :=
  (("user_defined", .object []) :: Json.withoutNull "rule" members).map fun m =>
    (m.1, if m.1 = "run" then RunSelection.completed m.2 else m.2)

theorem RunSelection.read_object_iff {members : List (String × Json)} {run : RunSelection} :
    (read (Json.object members) : Except Mismatch RunSelection) = .ok run ↔
      (∀ key, (Json.lastMember? key members).isSome = true →
        key ∈ ["payment_cycle", "reward_program_id", "cycles"]) ∧
      IsField word none (Json.lastMember? "payment_cycle" members) run.paymentCycle ∧
      IsField Source.text none (Json.lastMember? "reward_program_id" members) run.programId ∧
      IsField halfWord (some 1) (Json.lastMember? "cycles" members) run.cycles := by
  refine ((describes_required _ _).map _ |>.required (by simp)
    |>.defaulted (by simp)).record_eq_ok_iff.trans ?_
  cases run
  simp [and_assoc]

theorem RunSelection.undoes : Undoes read toJson := by
  intro run
  apply read_object_iff.mpr
  exact ⟨fun _ => Json.isSome_lastMember?_iff.mp, undoes_word _, undoes_text _, undoes_halfWord _⟩

theorem RunSelection.same_of_read {members : List (String × Json)} {run : RunSelection}
    (h : (read (Json.object members) : Except Mismatch RunSelection) = .ok run) :
    Json.Same (· = ·) (completed (.object members)) run.toJson := by
  obtain ⟨hknown, hcycle, hprogram, hcycles⟩ := read_object_iff.mp h
  have hword : Restores (· = ·) word fun n => .natural n.toNat := restores_word fun _ => rfl
  have hhalfWord : Restores (· = ·) halfWord fun n => .natural n.toNat :=
    restores_halfWord fun _ => rfl
  apply Json.Same.object_of_fields
  · intro key hkey
    rw [Json.lastMember?_cons] at hkey
    by_cases hdefault : "cycles" = key
    · simp [← hdefault]
    · rw [if_neg hdefault, Option.or_none] at hkey
      exact hknown key hkey
  · simp only [List.forall_mem_cons, Json.lastMember?_cons]
    refine ⟨?_, ?_, hhalfWord.defaulted hcycles, by simp⟩
    · obtain ⟨v, hv, hsame⟩ := hword.field hcycle
      exact ⟨v, by rw [hv]; rfl, hsame⟩
    · obtain ⟨v, hv, hsame⟩ := restores_text.field hprogram
      exact ⟨v, by rw [hv]; rfl, hsame⟩

theorem ParameterDocument.read_object_iff {members : List (String × Json)}
    {document : ParameterDocument} :
    (read (Json.object members) : Except Mismatch ParameterDocument) = .ok document ↔
      (∀ key, (Json.lastMember? key members).isSome = true →
        key ∈ ["rule", "core", "user_defined", "run"]) ∧
      IsField (optional Source.text) (some none) (Json.lastMember? "rule" members) document.rule ∧
      IsField CoreParameters.read none (Json.lastMember? "core" members) document.core ∧
      IsField (dictionary Source.value) (some .empty) (Json.lastMember? "user_defined" members)
        document.userDefined ∧
      IsField RunSelection.read none (Json.lastMember? "run" members) document.run := by
  refine ((describes_defaulted _ _ _).map _ |>.required (by simp)
    |>.defaulted (by simp) |>.required (by simp)).record_eq_ok_iff.trans ?_
  cases document
  simp [and_assoc]

theorem ParameterDocument.undoes : Undoes read toJson := by
  intro document
  obtain ⟨rule, core, userDefined, run⟩ := document
  apply read_object_iff.mpr
  cases rule with
  | none =>
      refine ⟨fun key hkey => ?_, rfl, CoreParameters.undoes core, undoes_value.dictionary _,
        RunSelection.undoes run⟩
      exact List.mem_cons_of_mem _ (Json.isSome_lastMember?_iff.mp hkey)
  | some rule =>
      exact ⟨fun _ => Json.isSome_lastMember?_iff.mp, optional_eq_ok_iff.mpr (Or.inr
        ⟨rule, by simp, rfl, rfl⟩), CoreParameters.undoes core, undoes_value.dictionary _,
        RunSelection.undoes run⟩

theorem ParameterDocument.lastMember?_completed (key : String) (members : List (String × Json)) :
    Json.lastMember? key (completed members) =
      ((Json.lastMember? key (Json.withoutNull "rule" members)).or
        (if "user_defined" = key then some (.object []) else none)).map
          fun v => if key = "run" then RunSelection.completed v else v := by
  rw [← Json.lastMember?_cons]
  exact Json.lastMember?_map (fun key v => if key = "run" then RunSelection.completed v else v) _ _

/-- Of a rule that is left out or the absent value no member is left. -/
theorem ParameterDocument.lastMember?_rule {members : List (String × Json)} {rule : Option String}
    (h : IsField (optional Source.text) (some none) (Json.lastMember? "rule" members) rule) :
    Json.lastMember? "rule" (Json.withoutNull "rule" members) = rule.map .text := by
  cases hlast : Json.lastMember? "rule" members with
  | none =>
      rw [hlast] at h
      obtain rfl : none = rule := Option.some.inj h
      rw [Json.withoutNull_of_ne (by simp [hlast])]
      exact hlast
  | some v =>
      rw [hlast] at h
      rcases optional_eq_ok_iff.mp h with ⟨rfl, rfl⟩ | ⟨name, hnull, hname, rfl⟩
      · exact Json.lastMember?_withoutNull_of_null hlast
      · obtain rfl := text_eq_ok_iff.mp hname
        rw [Json.withoutNull_of_ne (by simp [hlast])]
        exact hlast

theorem ParameterDocument.same_of_read {members : List (String × Json)}
    {document : ParameterDocument}
    (hobjects : ∀ key ∈ ["core", "run"], ∀ v, Json.lastMember? key members = some v → v.IsObject)
    (h : (read (Json.object members) : Except Mismatch ParameterDocument) = .ok document) :
    Json.Same (· = ·) (.object (completed members)) document.toJson := by
  obtain ⟨hknown, hrule, hcore, huser, hrun⟩ := read_object_iff.mp h
  have hvalue : Restores (· = ·) Source.value id := restores_value fun _ => rfl
  have hkept : ∀ {key}, key ≠ "rule" →
      Json.lastMember? key (Json.withoutNull "rule" members) = Json.lastMember? key members :=
    fun hne => Json.lastMember?_withoutNull_of_ne hne members
  apply Json.Same.object_of_fields
  · intro key hkey
    rw [lastMember?_completed, Option.isSome_map] at hkey
    rw [List.map_append, List.mem_append]
    by_cases hname : key = "rule"
    · subst hname
      rw [lastMember?_rule hrule] at hkey
      left
      cases hdocument : document.rule with
      | none =>
          rw [hdocument] at hkey
          cases hkey
      | some rule => simp
    · right
      by_cases hdefault : "user_defined" = key
      · simp [← hdefault]
      · rw [hkept hname, if_neg hdefault, Option.or_none] at hkey
        have hin := hknown key hkey
        rw [List.mem_cons] at hin
        exact hin.resolve_left hname
  · rw [List.forall_mem_append]
    constructor
    · intro e he
      obtain ⟨rule, hmem, rfl⟩ := List.mem_map.mp he
      have hgiven : document.rule = some rule := Option.mem_toList.mp hmem
      refine ⟨.text rule, ?_, .text rule⟩
      rw [lastMember?_completed, lastMember?_rule hrule, hgiven]
      rfl
    · simp only [List.forall_mem_cons, lastMember?_completed]
      refine ⟨?_, ?_, ?_, by simp⟩
      · obtain ⟨v, hlast, hread⟩ := hcore.exists_of_required
        obtain ⟨fields, rfl⟩ := hobjects "core" (by simp) v hlast
        refine ⟨_, ?_, CoreParameters.same_of_read hread⟩
        rw [hkept (by decide), hlast]
        rfl
      · rw [hkept (by decide)]
        obtain ⟨v, hv, hsame⟩ := hvalue.dictionary.defaulted huser
        have hv : (Json.lastMember? "user_defined" members).or (some (.object [])) = some v := hv
        refine ⟨v, ?_, hsame⟩
        rw [if_pos trivial, hv]
        rfl
      · obtain ⟨v, hlast, hread⟩ := hrun.exists_of_required
        obtain ⟨fields, rfl⟩ := hobjects "run" (by simp) v hlast
        refine ⟨_, ?_, RunSelection.same_of_read hread⟩
        rw [hkept (by decide), hlast]
        rfl

/-- **Records are read as what they were written from, and those that admit no other keys are
written as the objects that they were read from.**  The latter is up to the order of members,
defaults that are filled in, a rule that is the absent value, and integers in the place of
doubles. -/
theorem reads_what_is_written :
    (Undoes CoreParameters.read CoreParameters.toJson ∧
      Undoes RunSelection.read RunSelection.toJson ∧
      Undoes ParameterDocument.read ParameterDocument.toJson ∧
      Undoes PaymentRecord.read PaymentRecord.toJson ∧
      (∀ s : PaymentSummary, s.uniquePayees < Word.count 64 →
        (PaymentSummary.read s.toJson : Except Mismatch PaymentSummary) = .ok s) ∧
      Undoes RuleIdentity.read RuleIdentity.toJson ∧
      Undoes BlockRange.read BlockRange.toJson ∧
      Undoes DatasetConfig.read DatasetConfig.toJson ∧
      Undoes TableConfig.read TableConfig.toJson ∧
      Undoes LatestExport.read LatestExport.toJson ∧
      Undoes WeightedUsageParameters.read WeightedUsageParameters.toJson ∧
      Undoes SafeOwnershipParameters.read SafeOwnershipParameters.toJson) ∧
    (∀ members core,
      (CoreParameters.read (Json.object members) : Except Mismatch CoreParameters) = .ok core →
        Json.Same (· = ·) (.object members) core.toJson) ∧
    (∀ members run,
      (RunSelection.read (Json.object members) : Except Mismatch RunSelection) = .ok run →
        Json.Same (· = ·) (RunSelection.completed (.object members)) run.toJson) ∧
    (∀ members document,
      (∀ key ∈ ["core", "run"], ∀ v, Json.lastMember? key members = some v → v.IsObject) →
      (ParameterDocument.read (Json.object members) : Except Mismatch ParameterDocument) =
          .ok document →
        Json.Same (· = ·) (.object (ParameterDocument.completed members)) document.toJson) ∧
    (∀ members p,
      (WeightedUsageParameters.read (Json.object members) :
          Except Mismatch WeightedUsageParameters) = .ok p →
        Json.Same Rounds (.object members) p.toJson) ∧
    ∀ members p,
      (SafeOwnershipParameters.read (Json.object members) :
          Except Mismatch SafeOwnershipParameters) = .ok p →
        Json.Same Rounds (.object members) p.toJson := by
  refine ⟨⟨CoreParameters.undoes, RunSelection.undoes, ParameterDocument.undoes,
    PaymentRecord.undoes, fun _ => PaymentSummary.read_toJson, RuleIdentity.undoes,
    BlockRange.undoes, DatasetConfig.undoes, TableConfig.undoes, LatestExport.undoes,
    WeightedUsageParameters.undoes, SafeOwnershipParameters.undoes⟩, ?_, ?_, ?_, ?_, ?_⟩
  · exact fun _ _ => CoreParameters.same_of_read
  · exact fun _ _ => RunSelection.same_of_read
  · exact fun _ _ => ParameterDocument.same_of_read
  · exact fun _ _ => WeightedUsageParameters.same_of_read
  · exact fun _ _ => SafeOwnershipParameters.same_of_read

end Rewards
