/-
Reading a value, and the value it was read from.

Two laws tie a reader to the way in which its values are written.  What is written is read as
what it was (`Undoes`), and what is read is written as the value it was read from
(`Restores`), up to what makes no difference to a JSON value.  Each holds of the values that
have no parts, and goes from the parts of a list or a dictionary to the whole.
-/
import Mathlib
import Rewards.Proofs.Shape.Fields

namespace Rewards.Shape

open Outcome (bind_eq_ok map_eq_ok)

variable {α : Type}

/-- What is written is read as what it was. -/
def Undoes (read : Json → Except Mismatch α) (write : α → Json) : Prop :=
  ∀ a, read (write a) = .ok a

/-- What is read is written as a value that is the same, given which numbers are. -/
def Restores (sameNumber : Number → Number → Prop) (read : Json → Except Mismatch α)
    (write : α → Json) : Prop :=
  ∀ v a, read v = .ok a → Json.Same sameNumber v (write a)

/-- An integer may stand for the double that it is rounded to. -/
inductive Rounds : Number → Number → Prop
  | same (n : Number) : Rounds n n
  | integer (i : Int) : Rounds (.integer i) (.real (.ofInt i))

/-! ### Values without parts -/

theorem text_eq_ok_iff {v : Json} {s : String} :
    (Source.text v : Except Mismatch String) = .ok s ↔ v = .text s := by
  constructor
  · intro h
    cases v with
    | text t => exact congrArg Json.text (Except.ok.inj h)
    | _ => cases h
  · rintro rfl
    rfl

theorem real_eq_ok_iff {v : Json} {x : Float} :
    (Source.real v : Except Mismatch Float) = .ok x ↔
      v = .real x ∨ ∃ i, v = .integer i ∧ x = .ofInt i := by
  constructor
  · intro h
    cases v with
    | number n =>
        cases n with
        | integer i => exact Or.inr ⟨i, rfl, (Except.ok.inj h).symm⟩
        | real y => exact Or.inl (congrArg Json.real (Except.ok.inj h))
    | _ => cases h
  · rintro (rfl | ⟨i, rfl, rfl⟩)
    · rfl
    · rfl

theorem whole_eq_ok_iff {bound : Nat} {type : String} {v : Json} {n : Nat} :
    (Source.whole bound type v : Except Mismatch Nat) = .ok n ↔ v = .natural n ∧ n < bound := by
  have hnatural : ∀ k : Nat, (Source.whole bound type (Json.natural k) : Except Mismatch Nat) =
      if k < bound then .ok k else .error (.wrongValue (.integer k) type) := fun _ => rfl
  constructor
  · intro h
    cases v with
    | number m =>
        cases m with
        | integer i =>
            cases i with
            | ofNat k =>
                have h := (hnatural k).symm.trans h
                by_cases hk : k < bound
                · rw [if_pos hk] at h
                  obtain rfl := Except.ok.inj h
                  exact ⟨rfl, hk⟩
                · rw [if_neg hk] at h
                  cases h
            | negSucc k => cases h
        | real x => cases h
    | _ => cases h
  · rintro ⟨rfl, hn⟩
    rw [hnatural, if_pos hn]

theorem word_eq_ok_iff {v : Json} {n : UInt64} :
    (word v : Except Mismatch UInt64) = .ok n ↔ v = .natural n.toNat := by
  rw [word, bind_eq_ok]
  simp only [whole_eq_ok_iff]
  constructor
  · rintro ⟨k, ⟨rfl, hk⟩, h⟩
    obtain rfl := Except.ok.inj h
    rw [UInt64.toNat_ofNat_of_lt' hk]
  · rintro rfl
    exact ⟨n.toNat, ⟨rfl, n.toNat_lt⟩, congrArg Except.ok n.ofNat_toNat⟩

theorem halfWord_eq_ok_iff {v : Json} {n : UInt32} :
    (halfWord v : Except Mismatch UInt32) = .ok n ↔ v = .natural n.toNat := by
  rw [halfWord, bind_eq_ok]
  simp only [whole_eq_ok_iff]
  constructor
  · rintro ⟨k, ⟨rfl, hk⟩, h⟩
    obtain rfl := Except.ok.inj h
    rw [UInt32.toNat_ofNat_of_lt' hk]
  · rintro rfl
    exact ⟨n.toNat, ⟨rfl, n.toNat_lt⟩, congrArg Except.ok n.ofNat_toNat⟩

theorem undoes_text : Undoes Source.text .text :=
  fun _ => text_eq_ok_iff.mpr rfl

theorem undoes_real : Undoes Source.real .real :=
  fun _ => real_eq_ok_iff.mpr (Or.inl rfl)

theorem undoes_word : Undoes word fun n => .natural n.toNat :=
  fun _ => word_eq_ok_iff.mpr rfl

theorem undoes_halfWord : Undoes halfWord fun n => .natural n.toNat :=
  fun _ => halfWord_eq_ok_iff.mpr rfl

theorem undoes_value : Undoes Source.value id :=
  fun _ => rfl

section Restoring

variable {sameNumber : Number → Number → Prop}

theorem restores_text : Restores sameNumber Source.text .text := by
  intro v s h
  rw [text_eq_ok_iff.mp h]
  exact .text s

theorem restores_real : Restores Rounds Source.real .real := by
  intro v x h
  rcases real_eq_ok_iff.mp h with rfl | ⟨i, rfl, rfl⟩
  · exact .number (.same _)
  · exact .number (.integer i)

theorem restores_word (hrefl : ∀ n, sameNumber n n) :
    Restores sameNumber word fun n => .natural n.toNat := by
  intro v n h
  rw [word_eq_ok_iff.mp h]
  exact .refl hrefl _

theorem restores_halfWord (hrefl : ∀ n, sameNumber n n) :
    Restores sameNumber halfWord fun n => .natural n.toNat := by
  intro v n h
  rw [halfWord_eq_ok_iff.mp h]
  exact .refl hrefl _

theorem restores_value (hrefl : ∀ n, sameNumber n n) : Restores sameNumber Source.value id := by
  intro v w h
  obtain rfl : v = w := Except.ok.inj h
  exact .refl hrefl v

end Restoring

/-! ### Optional values, lists and dictionaries -/

theorem optional_eq_ok_iff {read : Json → Except Mismatch α} {v : Json} {a? : Option α} :
    optional read v = .ok a? ↔
      (v = .null ∧ a? = none) ∨ ∃ a, v ≠ .null ∧ read v = .ok a ∧ a? = some a := by
  by_cases hnull : v = .null
  · subst hnull
    constructor
    · intro h
      exact Or.inl ⟨rfl, (Except.ok.inj h).symm⟩
    · rintro (⟨-, rfl⟩ | ⟨a, h, -⟩)
      · rfl
      · exact absurd rfl h
  · have hpresent : optional read v = some <$> read v := by
      cases v with
      | null => exact absurd rfl hnull
      | _ => rfl
    rw [hpresent, map_eq_ok]
    constructor
    · rintro ⟨a, ha, rfl⟩
      exact Or.inr ⟨a, hnull, ha, rfl⟩
    · rintro (⟨h, -⟩ | ⟨a, -, ha, rfl⟩)
      · exact absurd h hnull
      · exact ⟨a, ha, rfl⟩

theorem foldlM_list_of_undoes {read : Json → Except Mismatch α} {write : α → Json}
    (h : Undoes read write) (l : List α) : ∀ before : List α,
      (l.map write).foldlM (fun (before : List α) v => do return (← read v) :: before) before =
        (.ok (l.reverse ++ before) : Except Mismatch (List α)) := by
  induction l with
  | nil => intro before; rfl
  | cons a rest ih =>
      intro before
      rw [List.map_cons, List.foldlM_cons, h a, List.reverse_cons, List.append_assoc]
      exact ih (a :: before)

theorem Undoes.list {read : Json → Except Mismatch α} {write : α → Json} (h : Undoes read write) :
    Undoes (list read) fun l => .array (l.map write) := by
  intro l
  have hfold := foldlM_list_of_undoes h l []
  refine bind_eq_ok.mpr ⟨_, hfold, ?_⟩
  rw [List.append_nil, List.reverse_reverse]
  rfl

/-- The values of a dictionary after some entries that have different keys. -/
theorem foldlM_insert_eq_ok_iff {read : Json → Except Mismatch α} :
    ∀ {entries : List (String × Json)} {before after : Dictionary α}, (entries.map (·.1)).Nodup →
      (entries.foldlM (fun d e => do return d.insert e.1 (← read e.2)) before = .ok after ↔
        ∀ key, match valueOf? entries key with
          | some v => ∃ a, read v = .ok a ∧ after.get? key = some a
          | none => after.get? key = before.get? key) := by
  intro entries
  induction entries with
  | nil =>
      intro before after _
      constructor
      · intro h key
        rw [Except.ok.inj h]
        rfl
      · intro h
        exact congrArg Except.ok (Dictionary.eq_of_get?_eq h).symm
  | cons e rest ih =>
      intro before after hkeys
      obtain ⟨hnew, hrest⟩ := List.nodup_cons.mp hkeys
      rw [List.foldlM_cons, bind_eq_ok]
      constructor
      · rintro ⟨_, hinsert, hfold⟩ key
        obtain ⟨a, ha, hinsert⟩ := bind_eq_ok.mp hinsert
        obtain rfl := Except.ok.inj hinsert
        have hlater := (ih hrest).mp hfold key
        rw [Dictionary.get?_insert] at hlater
        rw [valueOf?_cons]
        by_cases hkey : e.1 = key
        · have hnone : valueOf? rest key = none := valueOf?_eq_none (hkey ▸ hnew)
          rw [hnone, if_pos hkey] at hlater
          rw [if_pos hkey]
          exact ⟨a, ha, hlater⟩
        · rw [if_neg hkey] at hlater
          rw [if_neg hkey]
          exact hlater
      · intro h
        have hhead := h e.1
        rw [valueOf?_cons, if_pos rfl] at hhead
        obtain ⟨a, ha, hget⟩ := hhead
        refine ⟨before.insert e.1 a, bind_eq_ok.mpr ⟨a, ha, rfl⟩, (ih hrest).mpr fun key => ?_⟩
        have hlater := h key
        rw [valueOf?_cons] at hlater
        rw [Dictionary.get?_insert]
        by_cases hkey : e.1 = key
        · have hnone : valueOf? rest key = none := valueOf?_eq_none (hkey ▸ hnew)
          rw [hnone, if_pos hkey, ← hkey]
          exact hget
        · rw [if_neg hkey] at hlater
          rw [if_neg hkey]
          exact hlater

/-- **A dictionary is read from an object exactly if it has the keys of the object, each with
what its value is read as.** -/
theorem dictionary_eq_ok_iff {read : Json → Except Mismatch α} {v : Json} {d : Dictionary α} :
    dictionary read v = .ok d ↔ ∃ members, v = .object members ∧
      ∀ key, match Json.lastMember? key members with
        | some w => ∃ a, read w = .ok a ∧ d.get? key = some a
        | none => d.get? key = none := by
  have hobject : ∀ members, dictionary read (.object members) = .ok d ↔
      ∀ key, match Json.lastMember? key members with
        | some w => ∃ a, read w = .ok a ∧ d.get? key = some a
        | none => d.get? key = none := by
    intro members
    have hfold : dictionary read (.object members) = .ok d ↔
        ∀ key, match valueOf? (Json.entries members) key with
          | some w => ∃ a, read w = .ok a ∧ d.get? key = some a
          | none => d.get? key = Dictionary.empty.get? key :=
      foldlM_insert_eq_ok_iff (Dictionary.nodup_keys _)
    simp only [valueOf?_entries] at hfold
    exact hfold
  constructor
  · intro h
    cases v with
    | object members => exact ⟨members, rfl, (hobject members).mp h⟩
    | _ => cases h
  · rintro ⟨members, rfl, h⟩
    exact (hobject members).mpr h

theorem Undoes.dictionary {read : Json → Except Mismatch α} {write : α → Json}
    (h : Undoes read write) : Undoes (dictionary read) (Dictionary.toJson write) := by
  intro d
  refine dictionary_eq_ok_iff.mpr ⟨_, rfl, fun key => ?_⟩
  rw [Json.lastMember?_toJson]
  cases d.get? key with
  | none => rfl
  | some a => exact ⟨a, h a, rfl⟩

theorem Restores.dictionary {sameNumber : Number → Number → Prop} {read : Json → Except Mismatch α}
    {write : α → Json} (h : Restores sameNumber read write) :
    Restores sameNumber (dictionary read) (Dictionary.toJson write) := by
  intro v d hread
  obtain ⟨members, rfl, hmembers⟩ := dictionary_eq_ok_iff.mp hread
  refine .object (fun key => ?_) fun key v w hv hw => ?_
  · have hkey := hmembers key
    rw [Json.lastMember?_toJson, Option.isSome_map]
    cases hlast : Json.lastMember? key members with
    | none =>
        rw [hlast] at hkey
        rw [hkey]
        rfl
    | some v =>
        rw [hlast] at hkey
        obtain ⟨a, -, hget⟩ := hkey
        rw [hget]
        rfl
  · have hkey := hmembers key
    rw [hv] at hkey
    obtain ⟨a, ha, hget⟩ := hkey
    rw [Json.lastMember?_toJson, hget] at hw
    obtain rfl := Option.some.inj hw
    exact h v a ha

/-! ### Fields -/

open Fields (IsField)

theorem isField_word_iff {v? : Option Json} {n : UInt64} :
    IsField word none v? n ↔ v? = some (.natural n.toNat) := by
  constructor
  · intro h
    obtain ⟨v, rfl, hread⟩ := h.exists_of_required
    rw [word_eq_ok_iff.mp hread]
  · rintro rfl
    exact word_eq_ok_iff.mpr rfl

/-- A field that is read is written as the value of its key. -/
theorem Restores.field {sameNumber : Number → Number → Prop}
    {read : Json → Except Mismatch α} {write : α → Json} (h : Restores sameNumber read write)
    {v? : Option Json} {a : α} (hfield : IsField read none v? a) :
    ∃ v, v? = some v ∧ Json.Same sameNumber v (write a) := by
  obtain ⟨v, hv, hread⟩ := hfield.exists_of_required
  exact ⟨v, hv, h v a hread⟩

/-- A field that is read or has its default is written as the value of its key or the default. -/
theorem Restores.defaulted {read : Json → Except Mismatch α} {write : α → Json}
    (h : Restores (· = ·) read write) {v? : Option Json} {absent a : α}
    (hfield : IsField read (some absent) v? a) :
    ∃ v, v?.or (some (write absent)) = some v ∧ Json.Same (· = ·) v (write a) := by
  cases v? with
  | none =>
      obtain rfl : absent = a := Option.some.inj hfield
      exact ⟨_, rfl, .refl (fun _ => rfl) _⟩
  | some v => exact ⟨v, rfl, h v a hfield⟩

end Rewards.Shape
