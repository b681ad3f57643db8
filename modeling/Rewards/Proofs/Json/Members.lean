/-
The members of an object that is put together.

What counts of an object is the last member of each key.  Here it is said what that is when
an object is made from another one: with a member in front, which counts only where there was
none, with other values for its keys, or without the members of a key.  Two objects are the
same if one of them lists just the members that count in the other.
-/
import Mathlib
import Rewards.Proofs.Json.Same

namespace Rewards.Json

/-- A value is an object. -/
def IsObject (v : Json) : Prop :=
  ∃ members, v = .object members

/-! ### Keys and the members with them -/

theorem isSome_lastMember?_iff {members : List (String × Json)} {key : String} :
    (lastMember? key members).isSome = true ↔ key ∈ members.map (·.1) := by
  rw [lastMember?_eq_find?, Option.isSome_map, List.find?_isSome, List.mem_map]
  simp only [List.mem_reverse, beq_iff_eq]

theorem lastMember?_cons (key other : String) (v : Json) (members : List (String × Json)) :
    lastMember? key ((other, v) :: members) =
      (lastMember? key members).or (if other = key then some v else none) := by
  rw [lastMember?]
  cases lastMember? key members with
  | none => rfl
  | some found => rfl

theorem lastMember?_map (change : String → Json → Json) (key : String)
    (members : List (String × Json)) :
    lastMember? key (members.map fun m => (m.1, change m.1 m.2)) =
      (lastMember? key members).map (change key) := by
  induction members with
  | nil => rfl
  | cons m rest ih =>
      rw [List.map_cons, lastMember?_cons, ih, lastMember?_cons key m.1 m.2]
      cases lastMember? key rest with
      | some found => rfl
      | none =>
          by_cases h : m.1 = key
          · simp [h]
          · simp [h]

/-- A key whose members are left out has no value, and every other key has its old one. -/
theorem lastMember?_filter_ne (key other : String) (members : List (String × Json)) :
    lastMember? key (members.filter fun m => m.1 ≠ other) =
      if key = other then none else lastMember? key members := by
  induction members with
  | nil => simp [lastMember?]
  | cons m rest ih =>
      obtain ⟨k, v⟩ := m
      rw [lastMember?_cons]
      by_cases hk : k = other
      · rw [List.filter_cons_of_neg (by simpa using hk), ih]
        by_cases hkey : key = other
        · rw [if_pos hkey, if_pos hkey]
        · rw [if_neg hkey, if_neg hkey, if_neg fun h => hkey (h.symm.trans hk), Option.or_none]
      · rw [List.filter_cons_of_pos (by simpa using hk), lastMember?_cons, ih]
        by_cases hkey : key = other
        · rw [if_pos hkey, if_pos hkey, if_neg fun h => hk (h.trans hkey)]
          rfl
        · rw [if_neg hkey, if_neg hkey]

/-! ### Absent values that are left out -/

/-- Members without those of a key whose value is the absent one. -/
def withoutNull (key : String) (members : List (String × Json)) : List (String × Json) :=
  match lastMember? key members with
  | some .null => members.filter fun m => m.1 ≠ key
  | _ => members

theorem lastMember?_withoutNull_of_ne {key other : String} (h : other ≠ key)
    (members : List (String × Json)) :
    lastMember? other (withoutNull key members) = lastMember? other members := by
  unfold withoutNull
  split
  · rw [lastMember?_filter_ne, if_neg h]
  · rfl

theorem lastMember?_withoutNull_of_null {key : String} {members : List (String × Json)}
    (h : lastMember? key members = some .null) :
    lastMember? key (withoutNull key members) = none := by
  rw [withoutNull, h]
  exact (lastMember?_filter_ne key key members).trans (if_pos rfl)

theorem withoutNull_of_ne {key : String} {members : List (String × Json)}
    (h : lastMember? key members ≠ some .null) : withoutNull key members = members := by
  unfold withoutNull
  split
  · contradiction
  · rfl

/-! ### Objects that are the same -/

/-- Objects are the same if the members of the one are those that the other lists. -/
theorem Same.object_of_fields {sameNumber : Number → Number → Prop}
    {members fields : List (String × Json)}
    (hknown : ∀ key, (lastMember? key members).isSome = true → key ∈ fields.map (·.1))
    (hfields : ∀ e ∈ fields, ∃ v, lastMember? e.1 members = some v ∧ Same sameNumber v e.2) :
    Same sameNumber (.object members) (.object fields) := by
  have hlisted : ∀ key w, lastMember? key fields = some w →
      ∃ v, lastMember? key members = some v ∧ Same sameNumber v w :=
    fun key w hw => hfields (key, w) (mem_of_lastMember? hw)
  refine .object (fun key => ?_) fun key v w hv hw => ?_
  · rw [Bool.eq_iff_iff]
    constructor
    · intro hsome
      exact isSome_lastMember?_iff.mpr (hknown key hsome)
    · intro hsome
      obtain ⟨w, hw⟩ := Option.isSome_iff_exists.mp hsome
      obtain ⟨v, hv, -⟩ := hlisted key w hw
      rw [hv]
      rfl
  · obtain ⟨v', hv', hsame⟩ := hlisted key w hw
    obtain rfl : v' = v := Option.some.inj (hv'.symm.trans hv)
    exact hsame

end Rewards.Json
