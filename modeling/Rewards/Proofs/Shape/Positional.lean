/-
What reading a record from an array comes to.

An array names no fields, so its items are taken for the fields in the order in which these are
declared.  That is nothing but reading the entries that one gets by putting the names before the
items, and the names are different; so a description of fields says of an array what it says of
an object (`Describes.record_array_eq_ok_iff`), and only the length can be wrong besides.
-/
import Mathlib
import Rewards.Proofs.Shape.Fields

namespace Rewards.Shape.Fields

open Outcome (bind_eq_ok)

variable {α : Type} {f : JsonFields α} {names : List String}
  {Holds : (String → Option Json) → α → Prop}

/-- Items are visited as the entries that have the names of the fields. -/
theorem visitItems_eq_foldlM : ∀ (names : List String) (items : List Json) (draft : f.Draft),
    visitItems f draft names items = (names.zip items).foldlM f.step draft := by
  intro names
  induction names with
  | nil => intro items draft; rfl
  | cons name names ih =>
      intro items draft
      cases items with
      | nil => rfl
      | cons v items =>
          rw [visitItems, List.zip_cons_cons, List.foldlM_cons, step]
          cases f.visit draft name v with
          | none => exact ih items draft
          | some next =>
              show (next >>= fun d => visitItems f d names items) =
                next >>= fun d => (names.zip items).foldlM f.step d
              simp only [ih]

/-- **A record is read from an array exactly if its fields are read from the items, and there are
no more of these than fields.** -/
theorem Describes.record_array_eq_ok_iff (h : f.Describes names Holds) (hnames : names.Nodup)
    {name : String} {strictness : Strictness} {items : List Json} {a : α} :
    record name strictness f (.array items) = .ok a ↔
      Holds (valueOf? (names.zip items)) a ∧ items.length ≤ names.length := by
  have hkeys : ((names.zip items).map Prod.fst).Nodup := by
    rw [List.zip_eq_zip_take_min, List.map_fst_zip (by simp)]
    exact hnames.sublist (List.take_sublist _ _)
  have hread : record name strictness f (.array items) = .ok a ↔ ∃ draft,
      visitItems f f.start f.names items = .ok draft ∧
        (f.finish draft = .ok a ∧ items.length ≤ f.names.length) := by
    refine bind_eq_ok.trans (exists_congr fun draft => and_congr_right fun _ => ?_)
    cases f.finish draft with
    | error missing =>
        constructor
        · intro h
          cases h
        · intro h
          cases h.1
    | ok b =>
        show (if f.names.length < items.length then Except.error _ else .ok b) = .ok a ↔ _
        split
        next hlong =>
          constructor
          · intro h
            cases h
          · intro h
            exact absurd h.2 (Nat.not_le.mpr hlong)
        next hshort =>
          constructor
          · intro h
            exact ⟨congrArg Except.ok (Except.ok.inj h), Nat.not_lt.mp hshort⟩
          · intro h
            exact congrArg Except.ok (Except.ok.inj h.1)
  rw [hread, h.names_eq, ← h.gives_iff hkeys]
  simp only [visitItems_eq_foldlM, Gives, ← and_assoc, exists_and_right]

/-- A record is read from an object or from an array. -/
theorem object_or_array_of_record {name : String} {strictness : Strictness} {json : Json} {a : α}
    (h : record name strictness f json = .ok a) :
    (∃ members, json = .object members) ∨ ∃ items, json = .array items := by
  cases json with
  | object members => exact Or.inl ⟨members, rfl⟩
  | array items => exact Or.inr ⟨items, rfl⟩
  | _ => cases h

end Rewards.Shape.Fields
