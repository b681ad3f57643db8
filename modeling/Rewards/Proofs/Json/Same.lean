/-
JSON values that are the same.

Arrays are the same if their items are, one by one.  Objects are the same if they have
the same keys and the same value for each; neither the order of members nor a member
that a later one of the same key replaces makes a difference, at any depth.  When two
numbers are the same is left open: they are equal, or they have the same text.
-/
import Mathlib
import Rewards.Parameters
import Rewards.Proofs.Dictionary
import Rewards.Proofs.Typed

namespace Rewards

/-- Whether a number can be written: a float that is finite, an integer that is a word. -/
def Number.isWritable : Number → Bool
  | .integer n => Word.holds n
  | .real x => x.isFinite

namespace Json

/-- Two values are the same, given which numbers are. -/
inductive Same (sameNumber : Number → Number → Prop) : Json → Json → Prop
  | null : Same sameNumber .null .null
  | bool (b : Bool) : Same sameNumber (.bool b) (.bool b)
  | number {m n : Number} (h : sameNumber m n) : Same sameNumber (.number m) (.number n)
  | text (s : String) : Same sameNumber (.text s) (.text s)
  | array {items others : List Json} (length_eq : items.length = others.length)
      (same : ∀ (i : Nat) v w, items[i]? = some v → others[i]? = some w → Same sameNumber v w) :
      Same sameNumber (.array items) (.array others)
  | object {members others : List (String × Json)}
      (keys : ∀ key, (lastMember? key members).isSome = (lastMember? key others).isSome)
      (same : ∀ key v w, lastMember? key members = some v → lastMember? key others = some w →
        Same sameNumber v w) :
      Same sameNumber (.object members) (.object others)

/-! ### Induction over values -/

/-- What holds of an array if it holds of its items, and of an object if it holds of its values. -/
@[elab_as_elim]
theorem induction {motive : Json → Prop} (null : motive .null) (bool : ∀ b, motive (.bool b))
    (number : ∀ n, motive (.number n)) (text : ∀ s, motive (.text s))
    (array : ∀ items, (∀ v ∈ items, motive v) → motive (.array items))
    (object : ∀ members, (∀ m ∈ members, motive m.2) → motive (.object members)) (v : Json) :
    motive v := by
  match v with
  | .null => exact null
  | .bool b => exact bool b
  | .number n => exact number n
  | .text s => exact text s
  | .array items => exact array items fun w _ => induction null bool number text array object w
  | .object members =>
      exact object members fun m _ => induction null bool number text array object m.2
termination_by sizeOf v
decreasing_by
  · have hlt := List.sizeOf_lt_of_mem ‹w ∈ items›
    simp only [Json.array.sizeOf_spec]
    omega
  · have hlt := List.sizeOf_lt_of_mem ‹m ∈ members›
    have hvalue : sizeOf m = 1 + sizeOf m.1 + sizeOf m.2 := by cases m; rfl
    simp only [Json.object.sizeOf_spec]
    omega

/-! ### Items and members -/

theorem isWritable_number (n : Number) : (Json.number n).isWritable = n.isWritable := by
  cases n <;> rfl

theorem isWritable_array_iff {items : List Json} :
    (Json.array items).isWritable = true ↔ ∀ v ∈ items, v.isWritable = true := by
  rw [isWritable]
  induction items with
  | nil => simp [areWritable]
  | cons v rest ih => rw [areWritable, Bool.and_eq_true, ih, List.forall_mem_cons]

theorem isWritable_object_iff {members : List (String × Json)} :
    (Json.object members).isWritable = true ↔ ∀ m ∈ members, m.2.isWritable = true := by
  rw [isWritable]
  induction members with
  | nil => simp [membersWritable]
  | cons m rest ih =>
      obtain ⟨key, v⟩ := m
      rw [membersWritable, Bool.and_eq_true, ih, List.forall_mem_cons]

theorem itemsWith_eq_map (number : Number → List Char) (items : List Json) :
    itemsWith number items = items.map (charsWith number) := by
  induction items with
  | nil => rfl
  | cons v rest ih => rw [itemsWith, ih, List.map_cons]

theorem membersWith_eq_map (number : Number → List Char) (members : List (String × Json)) :
    membersWith number members = members.map fun m => (m.1, charsWith number m.2) := by
  induction members with
  | nil => rfl
  | cons m rest ih =>
      obtain ⟨key, v⟩ := m
      rw [membersWith, ih, List.map_cons]

theorem lastMember?_eq_find? (key : String) (members : List (String × Json)) :
    lastMember? key members = (members.reverse.find? (fun m => m.1 == key)).map (·.2) := by
  induction members with
  | nil => rfl
  | cons m rest ih =>
      obtain ⟨k, v⟩ := m
      rw [lastMember?, ih, List.reverse_cons, List.find?_append]
      cases rest.reverse.find? (fun m => m.1 == key) with
      | some found => rfl
      | none =>
          rw [Option.map_none, Option.none_or, Dictionary.find?_cons_key]
          by_cases h : k = key
          · simp [h]
          · simp [h]

theorem mem_of_lastMember? {key : String} {members : List (String × Json)} {v : Json}
    (h : lastMember? key members = some v) : (key, v) ∈ members := by
  rw [lastMember?_eq_find?] at h
  obtain ⟨m, hfound, rfl⟩ := Option.map_eq_some_iff.mp h
  obtain ⟨hmem, rfl⟩ := Dictionary.of_find?_key hfound
  exact List.mem_reverse.mp hmem

/-- Objects are the same if a key is mapped to the same value by both. -/
theorem Same.object_of_forall {sameNumber : Number → Number → Prop}
    {members others : List (String × Json)}
    (hkeys : ∀ key, lastMember? key members = lastMember? key others)
    (hrefl : ∀ m ∈ members, Same sameNumber m.2 m.2) :
    Same sameNumber (.object members) (.object others) := by
  refine .object (fun key => by rw [hkeys key]) fun key v w hv hw => ?_
  obtain rfl : v = w := Option.some.inj (hv.symm.trans ((hkeys key).trans hw))
  exact hrefl _ (mem_of_lastMember? hv)

/-- Every value is the same as itself, if every number is. -/
theorem Same.refl {sameNumber : Number → Number → Prop} (hrefl : ∀ n, sameNumber n n) (v : Json) :
    Same sameNumber v v := by
  induction v using Json.induction with
  | null => exact .null
  | bool b => exact .bool b
  | number n => exact .number (hrefl n)
  | text s => exact .text s
  | array items ih =>
      refine .array rfl fun i v w hv hw => ?_
      obtain rfl : v = w := Option.some.inj (hv.symm.trans hw)
      exact ih v (List.mem_of_getElem? hv)
  | object members ih => exact .object_of_forall (fun _ => rfl) ih

theorem Same.symm {sameNumber : Number → Number → Prop}
    (hsymm : ∀ m n, sameNumber m n → sameNumber n m) {a b : Json} (h : Same sameNumber a b) :
    Same sameNumber b a := by
  induction h with
  | null => exact .null
  | bool b => exact .bool b
  | number h => exact .number (hsymm _ _ h)
  | text s => exact .text s
  | array length_eq _ ih => exact .array length_eq.symm fun i v w hv hw => ih i w v hw hv
  | object keys _ ih =>
      exact .object (fun key => (keys key).symm) fun key v w hv hw => ih key w v hw hv

/-! ### What is the same in values that are -/

section Inversion

variable {sameNumber : Number → Number → Prop}

theorem Same.number_inv {m n : Number} (h : Same sameNumber (.number m) (.number n)) :
    sameNumber m n := by
  cases h with
  | number h => exact h

theorem Same.text_inv {s t : String} (h : Same sameNumber (.text s) (.text t)) : s = t := by
  cases h with
  | text => rfl

theorem Same.isSome_member {members others : List (String × Json)}
    (h : Same sameNumber (.object members) (.object others)) (key : String) :
    (lastMember? key members).isSome = (lastMember? key others).isSome := by
  cases h with
  | object keys _ => exact keys key

theorem Same.member {members others : List (String × Json)}
    (h : Same sameNumber (.object members) (.object others)) (key : String) {v w : Json}
    (hv : lastMember? key members = some v) (hw : lastMember? key others = some w) :
    Same sameNumber v w := by
  cases h with
  | object _ same => exact same key v w hv hw

theorem Same.word_member {members others : List (String × Json)}
    (h : Same (· = ·) (.object members) (.object others)) (key : String) {m n : UInt64}
    (hm : lastMember? key members = some (.natural m.toNat))
    (hn : lastMember? key others = some (.natural n.toNat)) : m = n :=
  UInt64.toNat_inj.mp (Int.ofNat.inj (Number.integer.inj (h.member key hm hn).number_inv))

theorem Same.real_member {members others : List (String × Json)}
    (h : Same (· = ·) (.object members) (.object others)) (key : String) {x y : Float}
    (hx : lastMember? key members = some (.real x))
    (hy : lastMember? key others = some (.real y)) : x = y :=
  Number.real.inj (h.member key hx hy).number_inv

end Inversion

/-! ### Objects as dictionaries -/

/-- The text that an object has for a key is that of the last member with the key. -/
theorem get?_membersWith (number : Number → List Char) (members : List (String × Json))
    (key : String) :
    (Dictionary.ofList (membersWith number members)).get? key =
      (lastMember? key members).map (charsWith number) := by
  rw [Dictionary.get?_ofList, membersWith_eq_map, ← List.map_reverse, List.find?_map,
    lastMember?_eq_find?, Option.map_map, Option.map_map]
  rfl

/-- In the object of a dictionary a key has the value that it has in the dictionary. -/
theorem lastMember?_entries (d : Dictionary Json) (key : String) :
    lastMember? key d.entries = d.get? key := by
  have hmem : ∀ {v : Json}, lastMember? key d.entries = some v → d.get? key = some v :=
    fun h => Dictionary.get?_eq_some_iff.mpr (mem_of_lastMember? h)
  cases hlast : lastMember? key d.entries with
  | some v => exact (hmem hlast).symm
  | none =>
      rw [lastMember?_eq_find?, Option.map_eq_none_iff, List.find?_eq_none] at hlast
      cases hget : d.get? key with
      | none => rfl
      | some v =>
          have hentry := List.mem_reverse.mpr (Dictionary.get?_eq_some_iff.mp hget)
          exact absurd (beq_self_eq_true key) (hlast _ hentry)

/-- A dictionary as an object has for each key the value of the dictionary as it is written. -/
theorem lastMember?_toJson {α : Type} (value : α → Json) (d : Dictionary α) (key : String) :
    lastMember? key (d.entries.map fun entry => (entry.1, value entry.2)) =
      (d.get? key).map value := by
  rw [← Dictionary.get?_map]
  exact lastMember?_entries (d.map value) key

/-- Options that are there together have the same image if their values have. -/
theorem map_eq_map_of_isSome {α β γ : Type} {x : Option α} {y : Option β} {f : α → γ} {g : β → γ}
    (hsome : x.isSome = y.isSome) (hvalue : ∀ v w, x = some v → y = some w → f v = g w) :
    x.map f = y.map g := by
  cases x with
  | none =>
      cases y with
      | none => rfl
      | some w => cases hsome
  | some v =>
      cases y with
      | none => cases hsome
      | some w => exact congrArg some (hvalue v w rfl rfl)

/-- Dictionaries whose objects are the same are the same, if their values are when written so. -/
theorem eq_of_same_toJson {sameNumber : Number → Number → Prop} {α : Type} {value : α → Json}
    (hvalue : ∀ x y : α, Same sameNumber (value x) (value y) → x = y) {d e : Dictionary α}
    (h : Same sameNumber (d.toJson value) (e.toJson value)) : d = e := by
  refine Dictionary.eq_of_get?_eq fun key => ?_
  have hsome := h.isSome_member key
  rw [lastMember?_toJson, lastMember?_toJson, Option.isSome_map, Option.isSome_map] at hsome
  have hget := map_eq_map_of_isSome (f := id) (g := id) hsome fun x y hx hy =>
    hvalue x y (h.member key (by rw [lastMember?_toJson, hx]; rfl)
      (by rw [lastMember?_toJson, hy]; rfl))
  rwa [Option.map_id, id, id] at hget

/-! ### From values to texts -/

/-- **Values that are the same have the same text, given that numbers that are the same do.** -/
theorem charsWith_eq_of_same {number : Number → List Char} {sameNumber : Number → Number → Prop}
    (hnumber : ∀ m n, sameNumber m n → number m = number n) {a b : Json}
    (h : Same sameNumber a b) : charsWith number a = charsWith number b := by
  induction h with
  | null => rfl
  | bool b => rfl
  | number h => exact hnumber _ _ h
  | text s => rfl
  | @array items others length_eq _ ih =>
      have hmap : items.map (charsWith number) = others.map (charsWith number) := by
        refine List.ext_getElem (by simpa using length_eq) fun i hi ho => ?_
        rw [List.getElem_map, List.getElem_map]
        exact ih i _ _ (List.getElem?_eq_getElem _) (List.getElem?_eq_getElem _)
      rw [charsWith, charsWith, itemsWith_eq_map, itemsWith_eq_map, hmap]
  | @object members others keys _ ih =>
      have hwritten : Dictionary.ofList (membersWith number members) =
          Dictionary.ofList (membersWith number others) := by
        refine Dictionary.eq_of_get?_eq fun key => ?_
        rw [get?_membersWith, get?_membersWith]
        exact map_eq_map_of_isSome (keys key) (ih key)
      rw [charsWith, charsWith, hwritten]

end Json

end Rewards
