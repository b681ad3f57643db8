/-
Paths with the same components.

Repeated slashes, slashes at the end and single dots make no difference to where a path
leads once a name is joined to it: on the way a directory is left for itself, which it can
be only if it is one, and that the name needs anyway.  So a file in a directory can be
reached by every path of the directory that has the same components.
-/
import Mathlib
import Rewards.Proofs.Files.Path

namespace Rewards

namespace Path

/-! ### The steps of a path -/

/-- A part of a path that does not stay where it is. -/
def isStep (part : String) : Bool :=
  part ≠ "" && part ≠ "."

/-- The parts of a path that lead somewhere else. -/
def steps (path : String) : List String :=
  (parts path).filter isStep

variable {name path a b : String}

theorem IsName.isStep (h : IsName name) : isStep name = true := by
  simp [Path.isStep, h.ne_empty, h.ne_dot]

/-- A path is absolute, and its steps are those of its components. -/
theorem components_eq (path : String) :
    (components path).1 = isAbsolute path ∧ (components path).2.filter isStep = steps path := by
  have hagain : ∀ l : List String, (l.filter isStep).filter isStep = l.filter isStep := fun l => by
    rw [List.filter_filter]
    simp
  unfold components steps
  split
  · rename_i rest habsolute hparts
    refine ⟨habsolute.symm, ?_⟩
    -- the dot that is kept at the front is no step
    rw [hparts, List.filter_cons_of_neg (by decide), List.filter_cons_of_neg (by decide)]
    exact hagain rest
  · exact ⟨rfl, hagain _⟩

theorem steps_eq_of_components_eq (h : components a = components b) : steps a = steps b := by
  rw [← (components_eq a).2, h, (components_eq b).2]

theorem isAbsolute_eq_of_components_eq (h : components a = components b) :
    isAbsolute a = isAbsolute b := by
  rw [← (components_eq a).1, h, (components_eq b).1]

/-- A name that is joined to a path is one more step. -/
theorem steps_join (path : String) (h : IsName name) : steps (join path name) = steps path ++ [name] := by
  by_cases hopen : IsOpen path
  · rw [steps, (parts_join_of_isOpen hopen h).1, List.filter_append, steps]
    simp [h.isStep]
  · obtain ⟨hclosed, hjoin⟩ := join_of_not_isOpen hopen h
    rw [hjoin, steps, steps, parts, parts, String.toList_append]
    rcases hclosed with rfl | hlast
    · show ((split ([] ++ name.toList)).map String.ofList).filter isStep = _
      rw [List.nil_append, h.split_toList]
      simp [split, isStep, h.ne_empty, h.ne_dot]
    · obtain ⟨front, hfront⟩ := List.getLast?_eq_some_iff.mp hlast
      rw [hfront, List.append_assoc, List.singleton_append, split_append, split_append,
        h.split_toList]
      simp [split, isStep, h.ne_empty, h.ne_dot]

theorem isAbsolute_join (path : String) (h : IsName name) :
    isAbsolute (join path name) = isAbsolute path := by
  rw [join, h.isAbsolute_eq_false, if_neg Bool.false_ne_true]
  by_cases hempty : path = ""
  · subst hempty
    rw [if_pos (Or.inl rfl), String.empty_append, h.isAbsolute_eq_false]
    rfl
  · have hne : path.toList ≠ [] := by
      simpa using hempty
    obtain ⟨c, rest, hpath⟩ := List.exists_cons_of_ne_nil hne
    split_ifs <;> simp [isAbsolute, hpath]

end Path

namespace FileTree

variable {tree : FileTree} {name a b : String}

/-! ### Where a name in a directory leads -/

/-- On the way to a name only the steps count. -/
theorem follow_concat : ∀ {parts : List String} {place : Place},
    tree.follow place (parts ++ [name]) = tree.follow place (parts.filter Path.isStep ++ [name]) := by
  intro parts
  induction parts with
  | nil => intro place; rfl
  | cons part rest ih =>
      intro place
      by_cases hstep : Path.isStep part = true
      · rw [List.filter_cons_of_pos hstep, List.cons_append, List.cons_append, follow, follow]
        simp only [ih]
      · have hstay : part = "" ∨ part = "." := by
          by_cases hempty : part = ""
          · exact Or.inl hempty
          · exact Or.inr (by simpa [Path.isStep, hempty] using hstep)
        rw [List.filter_cons_of_neg hstep, ← ih, List.cons_append]
        obtain ⟨next, others, hnext⟩ := List.exists_cons_of_ne_nil
          (List.append_ne_nil_of_right_ne_nil rest (List.cons_ne_nil name []))
        rw [follow, hnext]
        cases hnode : tree.node? place with
        | none => rw [follow, hnode]
        | some node =>
            cases node with
            | file content => rw [follow, hnode]
            | directory => exact if_pos hstay

/-- A name in a directory is reached by the steps to the directory and the name. -/
theorem resolve_join (path : String) (h : Path.IsName name) :
    tree.resolve (Path.join path name) =
      tree.follow (tree.startOf path) (Path.steps path ++ [name]) := by
  obtain ⟨⟨before, hbefore⟩, hopen⟩ := Path.exists_parts_join path h
  have hsteps := Path.steps_join path h
  rw [Path.steps, hbefore, List.filter_append, List.filter_cons_of_pos h.isStep, List.filter_nil] at hsteps
  rw [resolve, if_neg hopen.1, hbefore, follow_concat, List.append_cancel_right hsteps, startOf,
    startOf, Path.isAbsolute_join path h]

/-- **Paths with the same components have the same files in them.** -/
theorem readText_join_eq (h : Path.components a = Path.components b) (hname : Path.IsName name) :
    tree.readText (Path.join a name) = tree.readText (Path.join b name) := by
  have hresolve : tree.resolve (Path.join a name) = tree.resolve (Path.join b name) := by
    rw [resolve_join a hname, resolve_join b hname, Path.steps_eq_of_components_eq h, startOf,
      startOf, Path.isAbsolute_eq_of_components_eq h]
  rw [readText, hresolve, readText]

end FileTree

end Rewards
