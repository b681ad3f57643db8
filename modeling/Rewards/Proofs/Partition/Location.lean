/-
The directories that locations stand for.

A location without the blanks around it is a path or the address of one.  An address has
a scheme, which is what stands before the first mark in it, and `file` is the only scheme
that is known.  So a location stands for a directory exactly if something is left of it
and it starts as a file address or has no mark at all.
-/
import Mathlib
import Rewards.Partition.Store

namespace Rewards.PartitionStore

/-! ### Schemes -/

/-- There is no scheme exactly if there is no mark. -/
theorem scheme?_eq_none_iff {cs : List Char} : scheme? cs = none ↔ ¬ schemeMark <:+: cs := by
  induction cs with
  | nil => simp [scheme?, schemeMark]
  | cons c rest ih =>
      rw [scheme?, List.infix_cons_iff]
      by_cases hmark : schemeMark.isPrefixOf (c :: rest) = true
      · rw [if_pos hmark]
        have hstarts := List.isPrefixOf_iff_prefix.mp hmark
        simp [hstarts]
      · rw [if_neg hmark, Option.map_eq_none_iff, ih, not_or]
        exact ⟨fun h => ⟨fun hp => hmark (List.isPrefixOf_iff_prefix.mpr hp), h⟩, fun h => h.2⟩

/-- What stands before the first mark of a text. -/
structure IsScheme (scheme text : List Char) : Prop where
  marked : scheme ++ schemeMark <+: text
  first : ∀ s, s ++ schemeMark <+: text → scheme.length ≤ s.length

theorem isScheme_of_scheme? : ∀ {cs scheme : List Char}, scheme? cs = some scheme →
    IsScheme scheme cs := by
  intro cs
  induction cs with
  | nil => intro scheme h; cases h
  | cons c rest ih =>
      intro scheme h
      rw [scheme?] at h
      by_cases hmark : schemeMark.isPrefixOf (c :: rest) = true
      · rw [if_pos hmark] at h
        obtain rfl := Option.some.inj h
        exact ⟨List.isPrefixOf_iff_prefix.mp hmark, fun s _ => Nat.zero_le _⟩
      · rw [if_neg hmark] at h
        obtain ⟨inner, hinner, rfl⟩ := Option.map_eq_some_iff.mp h
        obtain ⟨hmarked, hfirst⟩ := ih hinner
        refine ⟨List.cons_prefix_cons.mpr ⟨rfl, hmarked⟩, fun s hs => ?_⟩
        cases s with
        | nil => exact absurd (List.isPrefixOf_iff_prefix.mpr hs) hmark
        | cons d s => exact Nat.succ_le_succ (hfirst s (List.cons_prefix_cons.mp hs).2)

/-- A text has one scheme at most. -/
theorem IsScheme.unique {s t text : List Char} (hs : IsScheme s text) (ht : IsScheme t text) :
    s = t := by
  have hlength : s.length = t.length :=
    Nat.le_antisymm (hs.first t ht.marked) (ht.first s hs.marked)
  have hstarts := fun {a : List Char} (h : a ++ schemeMark <+: text) =>
    (List.prefix_append a schemeMark).trans h
  exact (List.prefix_of_prefix_length_le (hstarts hs.marked) (hstarts ht.marked)
    (Nat.le_of_eq hlength)).eq_of_length hlength

theorem IsScheme.ne_nil {scheme text : List Char} (h : IsScheme scheme text) : text ≠ [] := by
  rintro rfl
  exact List.append_ne_nil_of_right_ne_nil _ (by decide) (List.prefix_nil.mp h.marked)

/-! ### Directories -/

/-- The start of a file address. -/
def fileMark : List Char :=
  "file://".toList

/-- The directory that a text stands for: a file address or a path without a mark. -/
inductive Names : String → String → Prop
  | address (root : String) : Names ("file://" ++ root) root
  | path {root : String} (hne : root ≠ "") (hplain : ¬ schemeMark <:+: root.toList) : Names root root

theorem schemeMark_infix_of_fileMark {cs : List Char} (h : fileMark <+: cs) : schemeMark <:+: cs :=
  (show schemeMark <:+: fileMark from ⟨['f', 'i', 'l', 'e'], [], rfl⟩).trans h.isInfix

theorem toList_address (root : String) : ("file://" ++ root).toList = fileMark ++ root.toList :=
  String.toList_append

/-- What a text stands for if it starts as a file address. -/
theorem names_of_fileMark {text : String} (h : fileMark <+: text.toList) :
    Names text (String.ofList (text.toList.drop "file://".length)) := by
  obtain ⟨rest, hrest⟩ := h
  have htext : text = "file://" ++ String.ofList rest := by
    rw [← String.toList_inj, toList_address, String.toList_ofList, hrest]
  have hdrop : text.toList.drop "file://".length = rest := by
    rw [← hrest]
    rfl
  rw [hdrop, htext]
  exact .address _

/-- A location stands for a directory, or nothing is left of it, or it has another scheme. -/
theorem directory_cases (location : String) :
    (∃ root, directory location = .ok root ∧ Names (Text.trimmed location) root) ∨
    (directory location = .error (.configuration "dataset location must not be empty") ∧
      Text.trimmed location = "") ∨
    ∃ scheme, directory location = .error (.configuration ("unsupported storage scheme '" ++
        String.ofList scheme ++ "' in '" ++ Text.trimmed location ++ "': use a local path")) ∧
      IsScheme scheme (Text.trimmed location).toList ∧
      ¬ fileMark <+: (Text.trimmed location).toList := by
  unfold directory
  simp only
  by_cases hempty : Text.trimmed location = ""
  · rw [if_pos hempty]
    exact Or.inr (Or.inl ⟨rfl, hempty⟩)
  · rw [if_neg hempty]
    by_cases hfile : "file://".toList.isPrefixOf (Text.trimmed location).toList = true
    · rw [if_pos hfile]
      exact Or.inl ⟨_, rfl, names_of_fileMark (List.isPrefixOf_iff_prefix.mp hfile)⟩
    · rw [if_neg hfile]
      cases hscheme : scheme? (Text.trimmed location).toList with
      | none => exact Or.inl ⟨_, rfl, .path hempty (scheme?_eq_none_iff.mp hscheme)⟩
      | some scheme =>
          exact Or.inr (Or.inr ⟨scheme, rfl, isScheme_of_scheme? hscheme,
            fun h => hfile (List.isPrefixOf_iff_prefix.mpr h)⟩)

namespace Names

variable {text root : String}

theorem ne_empty (h : Names text root) : text ≠ "" := by
  cases h with
  | address =>
      intro hempty
      have hlist := toList_address root
      rw [hempty] at hlist
      exact List.cons_ne_nil _ _ hlist.symm
  | path hne => exact hne

theorem fileMark_of_isScheme (h : Names text root) {scheme : List Char}
    (hscheme : IsScheme scheme text.toList) : fileMark <+: text.toList := by
  cases h with
  | address =>
      rw [toList_address]
      exact List.prefix_append _ _
  | path _ hplain =>
      exact absurd ((List.suffix_append scheme schemeMark).isInfix.trans hscheme.marked.isInfix)
        hplain

theorem unique {other : String} (h : Names text root) (h' : Names text other) : root = other := by
  cases h with
  | address =>
      generalize htext : "file://" ++ root = text at h'
      cases h' with
      | address =>
          have hlist := congrArg String.toList htext
          rw [toList_address, toList_address] at hlist
          exact String.toList_inj.mp (List.append_cancel_left hlist)
      | path _ hplain =>
          refine absurd (schemeMark_infix_of_fileMark ?_) hplain
          rw [← htext, toList_address]
          exact List.prefix_append _ _
  | path _ hplain =>
      cases h' with
      | address =>
          refine absurd (schemeMark_infix_of_fileMark ?_) hplain
          rw [toList_address]
          exact List.prefix_append _ _
      | path => rfl

end Names

/-- **A location stands for a directory if what is left of it is a file address or has no mark.** -/
theorem directory_eq_ok_iff {location root : String} :
    directory location = .ok root ↔ Names (Text.trimmed location) root := by
  rcases directory_cases location with ⟨found, hok, hnames⟩ | ⟨herror, hempty⟩ |
    ⟨scheme, herror, hscheme, hfile⟩
  · rw [hok, Except.ok.injEq]
    exact ⟨fun h => h ▸ hnames, fun h => hnames.unique h⟩
  · rw [herror]
    constructor
    · intro h
      cases h
    · intro h
      exact absurd hempty h.ne_empty
  · rw [herror]
    constructor
    · intro h
      cases h
    · intro h
      exact absurd (h.fileMark_of_isScheme hscheme) hfile

/-- The problem with a location of which nothing is left, or that has another scheme. -/
theorem directory_eq_error_iff {location : String} {problem : Problem} :
    directory location = .error problem ↔
      (Text.trimmed location = "" ∧
        problem = .configuration "dataset location must not be empty") ∨
      ∃ scheme, IsScheme scheme (Text.trimmed location).toList ∧
        ¬ fileMark <+: (Text.trimmed location).toList ∧
        problem = .configuration ("unsupported storage scheme '" ++ String.ofList scheme ++
          "' in '" ++ Text.trimmed location ++ "': use a local path") := by
  rcases directory_cases location with ⟨found, hok, hnames⟩ | ⟨herror, hempty⟩ |
    ⟨scheme, herror, hscheme, hfile⟩
  · rw [hok]
    constructor
    · intro h
      cases h
    · rintro (⟨hempty, -⟩ | ⟨scheme, hscheme, hfile, -⟩)
      · exact absurd hempty hnames.ne_empty
      · exact absurd (hnames.fileMark_of_isScheme hscheme) hfile
  · rw [herror, Except.error.injEq]
    constructor
    · intro h
      exact Or.inl ⟨hempty, h.symm⟩
    · rintro (⟨-, h⟩ | ⟨scheme, hscheme, -⟩)
      · exact h.symm
      · exact absurd (congrArg String.toList hempty) hscheme.ne_nil
  · rw [herror, Except.error.injEq]
    constructor
    · intro h
      exact Or.inr ⟨scheme, hscheme, hfile, h.symm⟩
    · rintro (⟨hempty, -⟩ | ⟨other, hother, -, h⟩)
      · exact absurd (congrArg String.toList hempty) hscheme.ne_nil
      · rw [h, hscheme.unique hother]

end Rewards.PartitionStore
