/-
Every variable that is not set is reported.

References are looked for at each place of the text, whether or not the text around it looks
like one: an opening without an end, one opening inside another, or dollar signs in a row hide
nothing.  No reference starts inside another one, so to find them at each place is to find them
one after the other.  The variables that are not set are passed over as they are found, while
those that are set change the text that has been filled and nothing else; so what is reported
depends only on the references of the text that was given, and on which variables are set.
-/
import Mathlib
import Rewards.Proofs.Parameters.Pieces

namespace Rewards.Template

variable {environment : Environment} {name : List Char} {text : List Char}

/-! ### Places -/

/-- A reference to `name` stands at a place of a text. -/
def RefersAt (text : List Char) (place : Nat) (name : List Char) : Prop :=
  IsName name ∧ reference name <+: text.drop place

theorem refersAt_iff {place : Nat} :
    RefersAt text place name ↔ headName? (text.drop place) = some name :=
  headName?_eq_some_iff.symm

/-- One reference at most stands at a place. -/
theorem RefersAt.unique {place : Nat} {other : List Char} (h : RefersAt text place name)
    (hother : RefersAt text place other) : name = other :=
  Option.some.inj ((refersAt_iff.mp h).symm.trans (refersAt_iff.mp hother))

/-- A reference stands at a place before the end. -/
theorem RefersAt.lt_length {place : Nat} (h : RefersAt text place name) : place < text.length := by
  by_contra hend
  have hprefix := h.2
  rw [List.drop_eq_nil_of_le (Nat.not_lt.mp hend), List.prefix_nil] at hprefix
  cases hprefix

/-- A text has a reference somewhere exactly if it has it at some place. -/
theorem isInfix_iff_exists_place {name text : List Char} (h : IsName name) :
    reference name <:+: text ↔ ∃ place, RefersAt text place name := by
  constructor
  · rintro ⟨before, after, rfl⟩
    refine ⟨before.length, h, after, ?_⟩
    rw [List.append_assoc, List.drop_left]
  · rintro ⟨place, -, hprefix⟩
    exact hprefix.isInfix.trans (List.drop_suffix _ _).isInfix

/-- The names of a text are those at its places, one place after the other. -/
theorem names_eq_filterMap (text : List Char) :
    names text = (List.range text.length).filterMap fun place => headName? (text.drop place) := by
  induction text with
  | nil => rfl
  | cons c rest ih =>
      have hshift : (List.range rest.length).filterMap
          ((fun place => headName? ((c :: rest).drop place)) ∘ Nat.succ) = names rest := ih.symm
      rw [List.length_cons, List.range_succ_eq_map, List.filterMap_cons, List.filterMap_map, hshift,
        List.drop_zero, names]
      cases headName? (c :: rest) <;> rfl

/-- The names of a text are those of the references that it has somewhere. -/
theorem mem_names_iff_isInfix : name ∈ names text ↔ IsName name ∧ reference name <:+: text := by
  rw [names_eq_filterMap, List.mem_filterMap]
  constructor
  · rintro ⟨place, -, hhead⟩
    have hplace := refersAt_iff.mpr hhead
    exact ⟨hplace.1, (isInfix_iff_exists_place hplace.1).mpr ⟨place, hplace⟩⟩
  · rintro ⟨hname, hinfix⟩
    obtain ⟨place, hplace⟩ := (isInfix_iff_exists_place hname).mp hinfix
    exact ⟨place, List.mem_range.mpr hplace.lt_length, refersAt_iff.mp hplace⟩

/-! ### Variables that are not set -/

/-- Whether the variable of a name is not set. -/
def isUnset (environment : Environment) (name : List Char) : Bool :=
  (environment.get? (String.ofList name)).isNone

/-- The variables of a text that are not set, as often as it refers to them. -/
def unset (environment : Environment) (text : List Char) : List String :=
  ((names text).filter (isUnset environment)).map String.ofList

/-- **Filling passes over exactly the variables that are not set**, whatever it replaces meanwhile. -/
theorem snd_fill : ∀ {order : List (List Char)} {text : List Char},
    (fill environment order text).2 = (order.filter (isUnset environment)).map String.ofList := by
  intro order
  induction order with
  | nil => intro text; rfl
  | cons name order ih =>
      intro text
      rw [fill, List.filter_cons, isUnset]
      cases environment.get? (String.ofList name) with
      | some value => exact ih
      | none => exact congrArg (String.ofList name :: ·) ih

theorem substitute_eq_error_iff {text : String} {problem : Problem} :
    substitute environment text = .error problem ↔
      unset environment text.toList ≠ [] ∧ problem = .configuration
        ("missing environment variable(s): " ++
          ", ".intercalate (unset environment text.toList)) := by
  have hmissing : (fill environment (names text.toList) text.toList).2 =
      unset environment text.toList := snd_fill
  unfold substitute
  rw [← hmissing]
  obtain ⟨filled, missing⟩ := fill environment (names text.toList) text.toList
  cases missing with
  | nil =>
      constructor
      · intro h
        cases h
      · rintro ⟨hne, -⟩
        exact absurd rfl hne
  | cons name rest =>
      constructor
      · intro h
        exact ⟨List.cons_ne_nil _ _, (Except.error.inj h).symm⟩
      · rintro ⟨-, rfl⟩
        rfl

/-! ### Reports -/

/-- Some variables are those that a text refers to at some places and that are not set. -/
structure Reports (environment : Environment) (text : List Char) (places : List Nat)
    (missing : List String) : Prop where
  /-- The places are in order, each once. -/
  ascending : places.Pairwise (· < ·)
  /-- They are all places at which a reference to an unset variable stands. -/
  complete : ∀ place, place ∈ places ↔
    ∃ name, RefersAt text place name ∧ environment.get? (String.ofList name) = none
  /-- The variables are those at the places, one for each. -/
  named : List.Forall₂ (fun place name => RefersAt text place name.toList) places missing

/-- What is found in a list goes with where it is found. -/
theorem forall₂_filter_filterMap {α β : Type} (f : α → Option β) : ∀ l : List α,
    List.Forall₂ (fun a b => f a = some b) (l.filter fun a => (f a).isSome) (l.filterMap f) := by
  intro l
  induction l with
  | nil => exact .nil
  | cons a rest ih =>
      cases hfound : f a with
      | none => simpa [hfound] using ih
      | some b => simpa [hfound] using ih

/-- **The unset variables of a text are reported place by place.** -/
theorem exists_reports_unset (environment : Environment) (text : List Char) :
    ∃ places, Reports environment text places (unset environment text) := by
  have hfound : ∀ {place name},
      (headName? (text.drop place)).filter (isUnset environment) = some name ↔
        RefersAt text place name ∧ environment.get? (String.ofList name) = none := by
    intro place name
    rw [Option.filter_eq_some_iff, refersAt_iff, isUnset, Option.isNone_iff_eq_none]
  refine ⟨(List.range text.length).filter fun place =>
    ((headName? (text.drop place)).filter (isUnset environment)).isSome, ?_, fun place => ?_, ?_⟩
  · exact List.pairwise_lt_range.filter _
  · rw [List.mem_filter, List.mem_range, Option.isSome_iff_exists]
    constructor
    · rintro ⟨-, name, hname⟩
      exact ⟨name, hfound.mp hname⟩
    · rintro ⟨name, hname⟩
      exact ⟨hname.1.lt_length, name, hfound.mpr hname⟩
  · rw [unset, names_eq_filterMap, List.filter_filterMap, List.forall₂_map_right_iff]
    refine (forall₂_filter_filterMap _ _).imp fun place name hname => ?_
    rw [String.toList_ofList]
    exact (hfound.mp hname).1

/-- There is one report for a text and an environment. -/
theorem Reports.unique {text : List Char} {places otherPlaces : List Nat}
    {missing others : List String} (h : Reports environment text places missing)
    (hother : Reports environment text otherPlaces others) : missing = others := by
  obtain rfl : places = otherPlaces := h.ascending.eq_of_mem_iff hother.ascending fun place =>
    (h.complete place).trans (hother.complete place).symm
  refine List.right_unique_forall₂' (fun place name other hname hname' => ?_) h.named hother.named
  exact String.toList_inj.mp (hname.unique hname')

/-- A text without references stays as it is. -/
theorem substitute_of_names_eq_nil {text : String} (h : names text.toList = []) :
    substitute environment text = .ok text := by
  rw [substitute, h, fill]
  exact congrArg Except.ok (String.ofList_toList)

/--
**Every unset variable of a text is reported.**  Filling a text fails exactly if there is a
reference somewhere in it to a variable that is not set.  The problem then names the variables
that are not set, for each place at which there is a reference to one, in the order of the
places; which variables are set between them, and to what, makes no difference.  A text without
references is left as it is.
-/
theorem reports_every_unset_variable (environment : Environment) (text : String) :
    ((∃ problem, substitute environment text = .error problem) ↔
      ∃ name, IsName name ∧ reference name <:+: text.toList ∧
        environment.get? (String.ofList name) = none) ∧
    (∀ problem, substitute environment text = .error problem ↔
      ∃ places missing, missing ≠ [] ∧ Reports environment text.toList places missing ∧
        problem = .configuration
          ("missing environment variable(s): " ++ ", ".intercalate missing)) ∧
    ((∀ name, IsName name → ¬ reference name <:+: text.toList) →
      substitute environment text = .ok text) := by
  obtain ⟨places, hreports⟩ := exists_reports_unset environment text.toList
  refine ⟨?_, fun problem => ?_, fun hnone => ?_⟩
  · have hsome : (∃ problem, substitute environment text = .error problem) ↔
        unset environment text.toList ≠ [] :=
      ⟨fun ⟨_, h⟩ => (substitute_eq_error_iff.mp h).1,
        fun hne => ⟨_, substitute_eq_error_iff.mpr ⟨hne, rfl⟩⟩⟩
    rw [hsome, unset, ne_eq, List.map_eq_nil_iff, List.eq_nil_iff_forall_not_mem, not_forall_not]
    simp only [List.mem_filter, mem_names_iff_isInfix, isUnset, Option.isNone_iff_eq_none,
      and_assoc]
  · rw [substitute_eq_error_iff]
    constructor
    · rintro ⟨hne, rfl⟩
      exact ⟨places, _, hne, hreports, rfl⟩
    · rintro ⟨otherPlaces, missing, hne, hother, rfl⟩
      obtain rfl := hreports.unique hother
      exact ⟨hne, rfl⟩
  · refine substitute_of_names_eq_nil (List.eq_nil_iff_forall_not_mem.mpr fun name hname => ?_)
    obtain ⟨hisName, hinfix⟩ := mem_names_iff_isInfix.mp hname
    exact hnone name hisName hinfix

/-- A variable that is not set, twice, among openings that are no references and one that is set. -/
theorem reports_every_unset_variable_twice :
    let environment : Environment := .ofList [("A", "$\x7bC\x7d")]
    let text := "$$\x7bB\x7d$\x7b$\x7bA\x7d\x7d$\x7b1B\x7dé$\x7bB\x7d$\x7bC"
    let literal := "cost: $5, $\x7b1\x7d, $\x7b\x7d"
    (∃ name, IsName name ∧ reference name <:+: text.toList ∧
        environment.get? (String.ofList name) = none) ∧
      (∃ places missing, missing ≠ [] ∧ Reports environment text.toList places missing ∧
        Problem.configuration "missing environment variable(s): B, B" = .configuration
          ("missing environment variable(s): " ++ ", ".intercalate missing)) ∧
      substitute environment literal = .ok literal := by
  intro environment text literal
  obtain ⟨hfails, hreports, -⟩ := reports_every_unset_variable environment text
  have herror : substitute environment text =
      .error (.configuration "missing environment variable(s): B, B") := by decide +kernel
  refine ⟨hfails.mp ⟨_, herror⟩, (hreports _).mp herror,
    (reports_every_unset_variable environment literal).2.2 fun name hname hinfix => ?_⟩
  have hnames : names literal.toList = [] := by decide +kernel
  have hmem : name ∈ names literal.toList := mem_names_iff_isInfix.mpr ⟨hname, hinfix⟩
  rw [hnames] at hmem
  cases hmem

end Rewards.Template
