/-
Snake case keeps names in camel case apart.

The default document of a rule lies in a directory that is named after the rule in snake case,
so two rules whose names come out alike would read each other's parameters.  Lower case alone
forgets where the capitals were.  What remembers them is the underscores: a name in camel case
has none of its own, so each one in the result stands before a letter that was a capital, and
the name can be read back (`camelTail_snakeTail`).  The first letter has no underscore before
it and needs none, because it is known to be a capital.

Of all other names it is said character by character what they come to.  Nothing that comes out
is a capital, which is why nothing is left to do for a second time.

That two rules never read one document holds of trees as they are modelled here, without
symbolic links: a link between their directories would make one document of the two.
-/
import Mathlib
import Rewards.Command
import Rewards.Proofs.Files.Path

namespace Rewards.Text

/-- A name in camel case starts with a capital and has no underscore. -/
def IsCamelCase (name : String) : Prop :=
  (name.toList.head?.any Char.isUpper) = true ∧ '_' ∉ name.toList

instance (name : String) : Decidable (IsCamelCase name) :=
  inferInstanceAs (Decidable (_ ∧ _))

/-- What a character of a name is in snake case, given how many come before it. -/
def snakePiece (c : Char) (before : Nat) : List Char :=
  if c.isUpper && 0 < before then ['_', c.toLower] else [c.toLower]

/-! ### Character by character -/

theorem snakePiece_succ_of_isUpper {c : Char} (h : c.isUpper = true) (before : Nat) :
    snakePiece c (before + 1) = ['_', c.toLower] := by
  simp [snakePiece, h]

theorem snakePiece_of_not_isUpper {c : Char} (h : ¬ c.isUpper = true) (before : Nat) :
    snakePiece c before = [c] := by
  simp [snakePiece, h, Char.toLower_eq_of_not_isUpper h]

/-- Behind another text, each character becomes what it is there. -/
theorem snakeTail_eq_flatMap : ∀ (cs : List Char) (before : Nat),
    snakeTail cs = (cs.zipIdx (before + 1)).flatMap fun e => snakePiece e.1 e.2 := by
  intro cs
  induction cs with
  | nil => intro before; rfl
  | cons c rest ih =>
      intro before
      rw [snakeTail, List.zipIdx_cons, List.flatMap_cons, ← ih (before + 1)]
      by_cases h : c.isUpper = true
      · rw [if_pos h, snakePiece_succ_of_isUpper h]
        rfl
      · rw [if_neg h, snakePiece_of_not_isUpper h]
        rfl

/-- **What each character of a name becomes.** -/
theorem toList_snakeCase (name : String) :
    (snakeCase name).toList = name.toList.zipIdx.flatMap fun e => snakePiece e.1 e.2 := by
  unfold snakeCase
  cases name.toList with
  | nil => rfl
  | cons c rest =>
      rw [List.zipIdx_cons, List.flatMap_cons, String.toList_ofList, snakeTail_eq_flatMap rest 0]
      simp [snakePiece]

theorem mem_snakeCase {name : String} {c : Char} (h : c ∈ (snakeCase name).toList) :
    c = '_' ∨ ∃ d ∈ name.toList, c = d.toLower := by
  rw [toList_snakeCase] at h
  obtain ⟨⟨d, before⟩, hd, hc⟩ := List.mem_flatMap.mp h
  have hmem : d ∈ name.toList := (List.mem_zipIdx' hd).2 ▸ List.getElem_mem _
  unfold snakePiece at hc
  split at hc
  · rcases List.mem_cons.mp hc with rfl | hc
    · exact Or.inl rfl
    · exact Or.inr ⟨d, hmem, List.mem_singleton.mp hc⟩
  · exact Or.inr ⟨d, hmem, List.mem_singleton.mp hc⟩

/-- No capital comes out. -/
theorem isUpper_of_mem_snakeCase {name : String} {c : Char} (h : c ∈ (snakeCase name).toList) :
    c.isUpper = false := by
  rcases mem_snakeCase h with rfl | ⟨d, -, rfl⟩
  · rfl
  · exact Char.isUpper_toLower_eq_false d

/-! ### A second time -/

theorem snakeTail_of_no_capital : ∀ {cs : List Char}, (∀ c ∈ cs, c.isUpper = false) →
    snakeTail cs = cs := by
  intro cs
  induction cs with
  | nil => intro _; rfl
  | cons c rest ih =>
      intro h
      have hc : ¬ c.isUpper = true := by simp [h c]
      rw [snakeTail, if_neg hc, ih fun d hd => h d (List.mem_cons_of_mem _ hd)]

/-- A text without capitals is in snake case. -/
theorem snakeCase_of_no_capital {name : String} (h : ∀ c ∈ name.toList, c.isUpper = false) :
    snakeCase name = name := by
  refine String.toList_inj.mp ?_
  unfold snakeCase
  cases hname : name.toList with
  | nil => rfl
  | cons c rest =>
      rw [hname] at h
      have hc : ¬ c.isUpper = true := by simp [h c]
      rw [String.toList_ofList, Char.toLower_eq_of_not_isUpper hc,
        snakeTail_of_no_capital fun d hd => h d (List.mem_cons_of_mem _ hd)]

/-! ### Reading a name back -/

/-- The text whose snake case this is, if it had no underscore: one stands before a capital. -/
def camelTail : List Char → List Char
  | [] => []
  | [c] => [c]
  | c :: d :: rest => if c = '_' then d.toUpper :: camelTail rest else c :: camelTail (d :: rest)

theorem toUpper_toLower_of_isUpper {c : Char} (h : c.isUpper = true) : c.toLower.toUpper = c := by
  rw [Char.toUpper_toLower_eq_toUpper]
  exact Char.toUpper_eq_of_not_isLower (Char.not_isLower_of_isUpper h)

theorem camelTail_cons_of_ne {c : Char} (h : c ≠ '_') (rest : List Char) :
    camelTail (c :: rest) = c :: camelTail rest := by
  cases rest with
  | nil => rfl
  | cons d rest => rw [camelTail, if_neg h]

/-- **A text without underscores is read back from its snake case.** -/
theorem camelTail_snakeTail : ∀ {cs : List Char}, '_' ∉ cs → camelTail (snakeTail cs) = cs := by
  intro cs
  induction cs with
  | nil => intro _; rfl
  | cons c rest ih =>
      intro h
      obtain ⟨hc, hrest⟩ := not_or.mp (mt List.mem_cons.mpr h)
      by_cases hupper : c.isUpper = true
      · rw [snakeTail, if_pos hupper, camelTail, if_pos rfl, toUpper_toLower_of_isUpper hupper,
          ih hrest]
      · rw [snakeTail, if_neg hupper, camelTail_cons_of_ne (Ne.symm hc), ih hrest]

/-- A name in camel case is a capital and what comes after it. -/
theorem IsCamelCase.exists_cons {name : String} (h : IsCamelCase name) :
    ∃ c rest, name.toList = c :: rest ∧ c.isUpper = true ∧ '_' ∉ rest ∧
      (snakeCase name).toList = c.toLower :: snakeTail rest := by
  obtain ⟨hhead, hunderscore⟩ := h
  cases hname : name.toList with
  | nil =>
      rw [hname] at hhead
      cases hhead
  | cons c rest =>
      rw [hname] at hhead hunderscore
      refine ⟨c, rest, rfl, hhead, fun hrest => hunderscore (List.mem_cons_of_mem _ hrest), ?_⟩
      rw [snakeCase, hname, String.toList_ofList]

theorem eq_of_snakeCase_eq {a b : String} (ha : IsCamelCase a) (hb : IsCamelCase b)
    (h : snakeCase a = snakeCase b) : a = b := by
  obtain ⟨c, xs, hxs, hc, hxsUnderscore, hsnakeA⟩ := ha.exists_cons
  obtain ⟨d, ys, hys, hd, hysUnderscore, hsnakeB⟩ := hb.exists_cons
  rw [h, hsnakeB] at hsnakeA
  obtain ⟨hlower, htail⟩ := List.cons.inj hsnakeA
  have hhead : c = d := by
    rw [← toUpper_toLower_of_isUpper hc, ← hlower, toUpper_toLower_of_isUpper hd]
  have hrest : xs = ys := by
    rw [← camelTail_snakeTail hxsUnderscore, ← htail, camelTail_snakeTail hysUnderscore]
  refine String.toList_inj.mp ?_
  rw [hxs, hys, hhead, hrest]

/-! ### The directory of a rule -/

/-- A name in camel case without a slash names a directory. -/
theorem IsCamelCase.isName {name : String} (h : IsCamelCase name) (hslash : '/' ∉ name.toList) :
    Path.IsName (snakeCase name) := by
  obtain ⟨c, rest, -, hc, -, hsnake⟩ := h.exists_cons
  have hdot : c.toLower ≠ '.' := by
    intro heq
    have hupper := toUpper_toLower_of_isUpper hc
    rw [heq] at hupper
    rw [← hupper] at hc
    exact absurd hc (by decide)
  refine ⟨fun hempty => ?_, fun hone => ?_, fun htwo => ?_, fun hmem => ?_⟩
  · rw [hempty] at hsnake
    cases hsnake
  · rw [hone] at hsnake
    exact hdot (List.cons.inj hsnake).1.symm
  · rw [htwo] at hsnake
    exact hdot (List.cons.inj hsnake).1.symm
  · rcases mem_snakeCase hmem with heq | ⟨d, hd, heq⟩
    · exact absurd heq (by decide)
    · by_cases hupper : d.isUpper = true
      · have hback := toUpper_toLower_of_isUpper hupper
        rw [← heq] at hback
        rw [← hback] at hupper
        exact absurd hupper (by decide)
      · rw [Char.toLower_eq_of_not_isUpper hupper] at heq
        exact hslash (heq ▸ hd)

/-- The default document of a rule lies in the directory of the rule, wherever that is. -/
theorem exists_place_of_defaultPath {tree : FileTree} {root name : String} {place : Place}
    {node : Node} (hname : IsCamelCase name) (hslash : '/' ∉ name.toList)
    (h : tree.resolve (Command.defaultPath root name) = .ok (place, node)) :
    ∃ front, place = front ++ [snakeCase name, "parameters.json"] := by
  have hnames : ∀ part ∈ [snakeCase name, "parameters.json"], Path.IsName part := by
    intro part hpart
    rcases List.mem_pair.mp hpart with rfl | rfl
    · exact hname.isName hslash
    · exact ⟨by decide, by decide, by decide, by decide⟩
  exact FileTree.exists_place_of_resolve (List.cons_ne_nil _ _) hnames h

/--
**Snake case keeps names in camel case apart.**  Names in camel case that are the same in snake
case are the same.  Of any name the snake case has no capital and is its own snake case, and it
is the name with all letters in lower case and with an underscore before each capital but the
first character.  So no two rules with names in camel case and without slashes have the same
default document, whatever the roots of the two are.
-/
theorem snakeCase_keeps_names_apart :
    (∀ a b, IsCamelCase a → IsCamelCase b → snakeCase a = snakeCase b → a = b) ∧
    (∀ name, (∀ c ∈ (snakeCase name).toList, c.isUpper = false) ∧
      snakeCase (snakeCase name) = snakeCase name ∧
      (snakeCase name).toList = name.toList.zipIdx.flatMap fun e => snakePiece e.1 e.2) ∧
    (∀ (tree : FileTree) (root other a b : String) (place : Place) (node : Node),
      IsCamelCase a → IsCamelCase b → '/' ∉ a.toList → '/' ∉ b.toList →
      tree.resolve (Command.defaultPath root a) = .ok (place, node) →
      tree.resolve (Command.defaultPath other b) = .ok (place, node) → a = b) := by
  refine ⟨fun a b ha hb h => eq_of_snakeCase_eq ha hb h, fun name => ?_, ?_⟩
  · exact ⟨fun c hc => isUpper_of_mem_snakeCase hc,
      snakeCase_of_no_capital fun c hc => isUpper_of_mem_snakeCase hc, toList_snakeCase name⟩
  · intro tree root other a b place node ha hb hslashA hslashB hplaceA hplaceB
    obtain ⟨front, hfront⟩ := exists_place_of_defaultPath ha hslashA hplaceA
    obtain ⟨before, hbefore⟩ := exists_place_of_defaultPath hb hslashB hplaceB
    have hends := (List.append_inj' (hfront.symm.trans hbefore) rfl).2
    exact eq_of_snakeCase_eq ha hb (List.cons.inj hends).1

/--
The same letters with other capitals among them make another name, with runs of capitals, digits
and letters beyond ASCII in it; and where the default document of one rule is, that of another
rule is not.
-/
theorem snakeCase_keeps_names_apart_capitals :
    let file : Place := ["srv", "input", "ab2_c", "parameters.json"]
    let tree : FileTree := ⟨["srv"], [(["srv"], .directory), (["srv", "input"], .directory),
      (["srv", "input", "ab2_c"], .directory), (file, .file (.bytes []))]⟩
    (IsCamelCase "ABÄ2C" ∧ IsCamelCase "AbÄ2C" ∧ snakeCase "ABÄ2C" = "a_bÄ2_c" ∧
      snakeCase "AbÄ2C" = "abÄ2_c" ∧ snakeCase "ABÄ2C" ≠ snakeCase "AbÄ2C") ∧
    (IsCamelCase "Ab2C" ∧ IsCamelCase "AB2C" ∧ '/' ∉ "Ab2C".toList ∧ '/' ∉ "AB2C".toList ∧
      tree.resolve (Command.defaultPath "./input" "Ab2C") = .ok (file, .file (.bytes [])) ∧
      tree.resolve (Command.defaultPath "/srv/input/" "AB2C") ≠ .ok (file, .file (.bytes []))) := by
  intro file tree
  obtain ⟨hinjective, -, hplaces⟩ := snakeCase_keeps_names_apart
  have hname : IsCamelCase "Ab2C" := by decide
  have hother : IsCamelCase "AB2C" := by decide
  have hslash : '/' ∉ "Ab2C".toList ∧ '/' ∉ "AB2C".toList := by decide
  have hfound : tree.resolve (Command.defaultPath "./input" "Ab2C") =
      .ok (file, .file (.bytes [])) := by decide +kernel
  refine ⟨⟨by decide, by decide, by decide, by decide, fun h => ?_⟩, hname, hother, hslash.1,
    hslash.2, hfound, fun h => ?_⟩
  · exact absurd (hinjective _ _ (by decide) (by decide) h) (by decide)
  · exact absurd (hplaces tree _ _ _ _ _ _ hname hother hslash.1 hslash.2 hfound h) (by decide)

end Rewards.Text
