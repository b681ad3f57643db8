/-
Reading the file that a path leads to.

A text is stored in UTF-8, and its file is read as this text.

A query is given the absolute path of a place, and it should read the file at that place
and no other.  For places whose names are plain it does: the path falls apart into just
these names, none of them is a pattern, and each can be read.
-/
import Mathlib
import Rewards.Files.Tables
import Rewards.Proofs.Files.Path

namespace Rewards

/-- A file that holds a text. -/
def Node.ofText (text : String) : Node :=
  .file (.bytes text.toUTF8.data.toList)

namespace FileTree

variable {tree : FileTree} {path : String} {place : Place} {node : Node}

/-! ### What is at the end of a path -/

theorem node?_of_follow : ∀ {names : List String} {start : Place},
    tree.follow start names = .ok (place, node) → tree.node? place = some node := by
  intro names
  induction names with
  | nil =>
      intro start h
      rw [follow] at h
      cases hnode : tree.node? start with
      | none => simp [hnode] at h
      | some found =>
          rw [hnode] at h
          cases h
          exact hnode
  | cons name rest ih =>
      intro start h
      rw [follow] at h
      cases hnode : tree.node? start with
      | none => simp [hnode] at h
      | some found =>
          rw [hnode] at h
          cases found with
          | file content => cases h
          | directory =>
              split_ifs at h with hstay hup
              · exact ih h
              · exact ih h
              · exact ih h

theorem node?_of_resolve (h : tree.resolve path = .ok (place, node)) :
    tree.node? place = some node := by
  rw [resolve] at h
  split_ifs at h
  exact node?_of_follow h

theorem text?_toUTF8 (text : String) : text? text.toUTF8.data.toList = some text := by
  rw [text?, Array.toArray_toList]
  exact dif_pos text.isValidUTF8

/-- The file of a text is read as this text. -/
theorem readText_of_resolve {text : String} (h : tree.resolve path = .ok (place, .ofText text)) :
    tree.readText path = .ok text := by
  simp only [readText, h, bind, Except.bind, Node.ofText, text?_toUTF8]

/-- A reader finds the file that a path leads to, with what it holds, and nothing else. -/
def IsReadBy (tree : FileTree) (read : TableReader) (path : String) : Prop :=
  ∀ place content, tree.resolve path = .ok (place, .file content) →
    read (Path.ofPlace place) = some [⟨Path.ofPlace place, content.columns?⟩]

/-- Whether a name stands for itself in a path that is read. -/
def isPlain (name : String) : Bool :=
  name ≠ "" && !name.toList.contains '/' && !Wildcard.occursIn name && isReadable name

/-- **A path to a plain place is read as the file that it leads to.** -/
theorem isReadBy_storedTables (hresolve : tree.resolve path = .ok (place, node))
    (hplain : place.all isPlain = true) : tree.IsReadBy tree.storedTables path := by
  intro found content h
  obtain ⟨rfl, rfl⟩ : place = found ∧ node = .file content := by
    rw [hresolve] at h
    cases h
    exact ⟨rfl, rfl⟩
  have hnode : tree.node? place = some (.file content) := node?_of_resolve h
  have hall : ∀ name ∈ place, name ≠ "" ∧ '/' ∉ name.toList ∧
      Wildcard.occursIn name = false ∧ isReadable name = true := fun name hname => by
    have hname := List.all_eq_true.mp hplain name hname
    simpa [isPlain, and_assoc] using hname
  have hne : place ≠ [] := by
    rintro rfl
    cases hnode
  have hnames : (Path.parts (Path.ofPlace place)).filter (· ≠ "") = place := by
    rw [Path.parts_ofPlace hne fun name hname => (hall name hname).2.1]
    rw [List.filter_cons_of_neg (by simp), List.filter_eq_self]
    exact fun name hname => by simpa using (hall name hname).1
  have hdirectory : place.takeWhile (!Wildcard.occursIn ·) = place :=
    List.takeWhile_eq_self_iff.mpr fun name hname => by simp [(hall name hname).2.2.1]
  have hreadable : place.all isReadable = true :=
    List.all_eq_true.mpr fun name hname => (hall name hname).2.2.2
  simp only [storedTables, hnames, hdirectory, hreadable, List.drop_length, hnode,
    Bool.not_true, Bool.false_eq_true, if_false, List.isEmpty_nil, if_true]

end FileTree

end Rewards
