/-
What is there after a file has been written.

Making directories adds directories where nothing was and leaves everything else as it is,
also if it fails half way.  Writing a file then puts it at one place, in a directory.  This
place was no directory before, so nobody on the way to another directory has come through it,
and the path of the directory leads to the same one as before.  So the path of the file leads
to what has been written.
-/
import Mathlib
import Rewards.Proofs.Files.Components
import Rewards.Proofs.Files.Tables
import Rewards.Proofs.Outcome

namespace Rewards.FileTree

variable {tree made after : FileTree} {start place other : Place} {node : Node}
  {parts names : List String} {directory name : String} {content : Content} {obstacle : Obstacle}

/-! ### One more place -/

theorem node?_set_of_ne (h : other ≠ place) : (tree.set place node).node? other = tree.node? other := by
  unfold node? set
  by_cases hroot : other = []
  · rw [if_pos hroot, if_pos hroot]
  · rw [if_neg hroot, if_neg hroot, List.find?_cons_of_neg (by simpa using Ne.symm h),
      List.find?_filter]
    refine congrArg (Option.map _) (List.find?_congr fun e he => ?_)
    by_cases hother : e.1 = other
    · simp [hother, h]
    · simp [hother]

theorem node?_set_self (h : place ≠ []) : (tree.set place node).node? place = some node := by
  unfold node? set
  rw [if_neg h]
  show Option.map _ (List.find? _ ((place, node) :: _)) = _
  rw [List.find?_cons_of_pos (by simp)]
  rfl

/-- The way to a directory leads through directories only, so a place that is none is not on it. -/
theorem follow_set_of_directory (hother : tree.node? other ≠ some .directory) :
    ∀ {names : List String} {start : Place}, tree.follow start names = .ok (place, .directory) →
      (tree.set other node).follow start names = .ok (place, .directory) := by
  have hsame : ∀ {p : Place}, tree.node? p = some .directory →
      (tree.set other node).node? p = some .directory := by
    intro p hp
    rw [node?_set_of_ne (fun heq : p = other => hother (heq ▸ hp)), hp]
  intro names
  induction names with
  | nil =>
      intro start h
      rw [follow] at h ⊢
      cases hnode : tree.node? start with
      | none => simp [hnode] at h
      | some found =>
          rw [hnode] at h
          cases h
          rw [hsame hnode]
  | cons name rest ih =>
      intro start h
      rw [follow] at h ⊢
      cases hnode : tree.node? start with
      | none => simp [hnode] at h
      | some found =>
          rw [hnode] at h
          cases found with
          | file content => cases h
          | directory =>
              rw [hsame hnode]
              simp only at h ⊢
              split_ifs at h ⊢ with hstay hup
              · exact ih h
              · exact ih h
              · exact ih h

/-! ### Making directories -/

/-- A tree with further directories, where there was nothing before. -/
structure AddsDirectories (before after : FileTree) : Prop where
  workingDirectory_eq : after.workingDirectory = before.workingDirectory
  same_or_new : ∀ place, after.node? place = before.node? place ∨
    (before.node? place = none ∧ after.node? place = some .directory)

theorem AddsDirectories.refl (tree : FileTree) : AddsDirectories tree tree :=
  ⟨rfl, fun _ => Or.inl rfl⟩

theorem AddsDirectories.trans {a b c : FileTree} (hab : AddsDirectories a b)
    (hbc : AddsDirectories b c) : AddsDirectories a c := by
  refine ⟨hbc.workingDirectory_eq.trans hab.workingDirectory_eq, fun place => ?_⟩
  rcases hbc.same_or_new place with hsame | ⟨hnone, hnew⟩
  · rw [hsame]
    exact hab.same_or_new place
  · rcases hab.same_or_new place with hsame | ⟨_, hnew'⟩
    · exact Or.inr ⟨hsame ▸ hnone, hnew⟩
    · rw [hnew'] at hnone
      cases hnone

theorem addsDirectories_of_makeDirectory (h : tree.makeDirectory start parts = .ok made) :
    AddsDirectories tree made := by
  unfold makeDirectory at h
  split at h
  · cases h
  · rename_i name rest _
    obtain ⟨⟨place, node⟩, hfollow, h⟩ := Outcome.bind_eq_ok.mp h
    cases node with
    | file content => cases h
    | directory =>
        simp only at h
        split_ifs at h with hthere
        obtain rfl := Except.ok.inj h
        simp only [not_or, Option.not_isSome_iff_eq_none] at hthere
        refine ⟨rfl, fun other => ?_⟩
        by_cases hother : other = place ++ [name]
        · subst hother
          exact Or.inr ⟨hthere.2.2, node?_set_self (List.append_ne_nil_of_right_ne_nil _ (by simp))⟩
        · exact Or.inl (node?_set_of_ne hother)

theorem addsDirectories_settle (tree : FileTree) (start : Place) (parts : List String) :
    AddsDirectories tree (tree.settle start parts).2 := by
  unfold settle
  cases h : tree.makeDirectory start parts with
  | ok made => exact addsDirectories_of_makeDirectory h
  | error obstacle => exact .refl tree

theorem addsDirectories_settleAll (tree : FileTree) (start : Place) :
    ∀ paths : List (List String), AddsDirectories tree (tree.settleAll start paths).2 := by
  intro paths
  induction paths with
  | nil => exact .refl tree
  | cons parts rest ih =>
      rw [settleAll]
      split
      · cases hrest : tree.settleAll start rest with
        | mk outcome made =>
            rw [hrest] at ih
            cases outcome with
            | error obstacle => exact ih
            | ok _ => exact ih.trans (addsDirectories_settle made start parts)
      · exact addsDirectories_settle tree start parts

/-- **Making directories changes nothing that is there**, whether it goes well or not. -/
theorem addsDirectories_makeDirectories (tree : FileTree) (path : String) :
    AddsDirectories tree (tree.makeDirectories path).2 := by
  unfold makeDirectories
  split
  · exact .refl tree
  · exact addsDirectories_settleAll tree _ _

/-! ### Writing a file -/

/-- A file is written where the parts of the path of its directory lead. -/
theorem writeFile_eq (tree : FileTree) (directory name : String) (content : Content) :
    tree.writeFile directory name content =
      (tree.follow (tree.startOf directory) (Path.parts directory)).bind fun found =>
        match found.2 with
        | .file _ => .error .notDirectory
        | .directory =>
          match tree.node? (found.1 ++ [name]) with
          | some .directory => .error .isDirectory
          | _ => .ok (tree.set (found.1 ++ [name]) (.file content)) := by
  unfold writeFile
  by_cases hempty : directory = ""
  · subst hempty
    -- an empty part stays where it is, like a dot
    rfl
  · simp only [if_neg hempty, resolve]
    rfl

theorem of_writeFile (h : tree.writeFile directory name content = .ok after) :
    ∃ place, tree.follow (tree.startOf directory) (Path.parts directory) = .ok (place, .directory) ∧
      tree.node? (place ++ [name]) ≠ some .directory ∧
      after = tree.set (place ++ [name]) (.file content) := by
  rw [writeFile_eq] at h
  obtain ⟨⟨place, node⟩, hfollow, h⟩ := Outcome.bind_eq_ok.mp h
  cases node with
  | file old => cases h
  | directory =>
      refine ⟨place, hfollow, ?_⟩
      cases hnode : tree.node? (place ++ [name]) with
      | none =>
          simp only [hnode] at h
          exact ⟨by simp, (Except.ok.inj h).symm⟩
      | some found =>
          cases found with
          | directory =>
              simp only [hnode] at h
              cases h
          | file old =>
              simp only [hnode] at h
              exact ⟨by simp, (Except.ok.inj h).symm⟩

/-- **A file that has been written is where its path leads**, and it is all that has changed. -/
theorem exists_place_of_writeFile (hname : Path.IsName name)
    (h : tree.writeFile directory name content = .ok after) :
    ∃ place, tree.node? place ≠ some .directory ∧ after = tree.set place (.file content) ∧
      after.resolve (Path.join directory name) = .ok (place, .file content) := by
  obtain ⟨place, hfollow, hfree, rfl⟩ := of_writeFile h
  refine ⟨place ++ [name], hfree, rfl, ?_⟩
  have hplace : place ++ [name] ≠ [] := List.append_ne_nil_of_right_ne_nil _ (by simp)
  have hway : (tree.set (place ++ [name]) (.file content)).follow (tree.startOf directory)
      (Path.parts directory) = .ok (place, .directory) := follow_set_of_directory hfree hfollow
  have hend : (tree.set (place ++ [name]) (.file content)).follow place [name] =
      .ok (place ++ [name], .file content) := by
    rw [follow, node?_of_follow hway]
    simp only
    rw [if_neg (not_or.mpr ⟨hname.ne_empty, hname.ne_dot⟩), if_neg hname.ne_dots, follow,
      node?_set_self hplace]
  rw [resolve_join directory hname, Path.steps, ← follow_concat, follow_append]
  show ((tree.set (place ++ [name]) (.file content)).follow (tree.startOf directory)
    (Path.parts directory)).bind _ = _
  rw [hway]
  exact hend

end Rewards.FileTree
