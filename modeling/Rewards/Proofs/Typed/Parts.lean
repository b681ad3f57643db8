/-
What a typed value is made of.

A value is a tree, and the tree has two walks: the check of its floats, and the
conversion to JSON, which objects to wide integers and to keys.  Both are compared here
with a third thing, the list of all parts of the value in the order of the document, a
key before its value, each with what it is there for.  The check finds the first float
of the list that is not finite.  Where there is none, the conversion goes through
exactly if every part is fit for what it is there for.

The two facts hold for the same reason: each walk visits the parts one after the other
and forgets none, so each is an induction over the constructors of a value.
-/
import Mathlib
import Rewards.Proofs.Outcome
import Rewards.Typed

namespace Rewards.Typed

/-! ### Parts -/

/-- What a part of a value is there for. -/
inductive Role where
  | value
  | key
deriving DecidableEq

mutual

/-- A value and all parts of it in the order of the document, a key before its value. -/
def parts (role : Role) : Typed → List (Role × Typed)
  | .present v => (role, .present v) :: parts role v
  | .wrapper v => (role, .wrapper v) :: parts role v
  | .sequence items => (role, .sequence items) :: itemParts items
  | .map entries => (role, .map entries) :: entryParts entries
  | .record fields => (role, .record fields) :: fieldParts fields
  | .variantOf name v => (role, .variantOf name v) :: parts .value v
  | .variantSequence name items => (role, .variantSequence name items) :: itemParts items
  | .variantRecord name fields => (role, .variantRecord name fields) :: fieldParts fields
  | v => [(role, v)]

/-- The parts of some items. -/
def itemParts : List Typed → List (Role × Typed)
  | [] => []
  | v :: rest => parts .value v ++ itemParts rest

/-- The parts of some entries. -/
def entryParts : List (Typed × Typed) → List (Role × Typed)
  | [] => []
  | (key, v) :: rest => parts .key key ++ (parts .value v ++ entryParts rest)

/-- The parts of some fields. -/
def fieldParts : List (String × Typed) → List (Role × Typed)
  | [] => []
  | (_, v) :: rest => parts .value v ++ fieldParts rest

end

/-- A float of either width. -/
inductive Floating where
  | single (x : Float32)
  | double (x : Float)

namespace Floating

/-- Whether a float is finite. -/
def isFinite : Floating → Bool
  | single x => x.isFinite
  | double x => x.isFinite

/-- The float as a double. -/
def toDouble : Floating → Float
  | single x => x.toFloat
  | double x => x

end Floating

/-- The float that a value is. -/
def float? : Typed → Option Floating
  | .single x => some (.single x)
  | .double x => some (.double x)
  | _ => none

/-- The floats among some parts. -/
def floatsOf (parts : List (Role × Typed)) : List Floating :=
  parts.filterMap fun part => part.2.float?

/-- The floats of a value in the order of the document, those of keys included. -/
def floats (v : Typed) : List Floating :=
  floatsOf (v.parts .value)

/-- What has one text, so that it can be a key. -/
inductive IsKey : Typed → Prop
  | bool (b : Bool) : IsKey (.bool b)
  | signed (n : Int64) : IsKey (.signed n)
  | unsigned (n : UInt64) : IsKey (.unsigned n)
  | wide (n : Int) : IsKey (.wide n)
  | single (x : Float32) : IsKey (.single x)
  | double (x : Float) : IsKey (.double x)
  | char (c : Char) : IsKey (.char c)
  | text (s : String) : IsKey (.text s)
  | variant (name : String) : IsKey (.variant name)
  | wrapper {v : Typed} (h : IsKey v) : IsKey (.wrapper v)

/-- A part is fit for what it is there for: a wide integer is a word, a key has one text. -/
def IsFit : Role × Typed → Prop
  | (.value, .wide n) => Word.holds n = true
  | (.value, _) => True
  | (.key, key) => IsKey key

/-! ### The check finds the first float that is not finite -/

/-- The first of some floats that is not finite. -/
def firstNonFinite? (floats : List Floating) : Option Float :=
  (floats.find? fun x => !x.isFinite).map Floating.toDouble

theorem firstNonFinite?_append (a b : List (Role × Typed)) :
    firstNonFinite? (floatsOf (a ++ b)) =
      firstOf (firstNonFinite? (floatsOf a)) (firstNonFinite? (floatsOf b)) := by
  rw [firstNonFinite?, floatsOf, List.filterMap_append, List.find?_append]
  unfold firstNonFinite? floatsOf
  cases (a.filterMap fun part => part.2.float?).find? (fun x => !x.isFinite) <;> rfl

theorem firstNonFinite?_single (role : Role) (x : Float32) :
    (if x.isFinite then none else some x.toFloat) =
      firstNonFinite? (floatsOf [(role, .single x)]) := by
  show _ = (List.find? (fun x => !x.isFinite) [Floating.single x]).map Floating.toDouble
  cases hx : x.isFinite <;> simp [Floating.isFinite, Floating.toDouble, hx]

theorem firstNonFinite?_double (role : Role) (x : Float) :
    (if x.isFinite then none else some x) = firstNonFinite? (floatsOf [(role, .double x)]) := by
  show _ = (List.find? (fun x => !x.isFinite) [Floating.double x]).map Floating.toDouble
  cases hx : x.isFinite <;> simp [Floating.isFinite, Floating.toDouble, hx]

mutual

/-- **The check finds the first float that is not finite**, wherever in the value it stands. -/
theorem nonFinite?_eq (role : Role) :
    ∀ v : Typed, nonFinite? v = firstNonFinite? (floatsOf (parts role v))
  | .single x => firstNonFinite?_single role x
  | .double x => firstNonFinite?_double role x
  | .present v => nonFinite?_eq role v
  | .wrapper v => nonFinite?_eq role v
  | .sequence items => nonFiniteItem?_eq items
  | .map entries => nonFiniteEntries?_eq entries
  | .record fields => nonFiniteField?_eq fields
  | .variantOf _ v => nonFinite?_eq .value v
  | .variantSequence _ items => nonFiniteItem?_eq items
  | .variantRecord _ fields => nonFiniteField?_eq fields
  | .bool _ | .signed _ | .unsigned _ | .wide _ | .char _ | .text _ | .bytes _ | .absent
  | .variant _ => rfl

theorem nonFiniteItem?_eq :
    ∀ items : List Typed, nonFiniteItem? items = firstNonFinite? (floatsOf (itemParts items))
  | [] => rfl
  | v :: rest => by
      rw [nonFiniteItem?, itemParts, firstNonFinite?_append, nonFinite?_eq .value v,
        nonFiniteItem?_eq rest]

theorem nonFiniteEntries?_eq : ∀ entries : List (Typed × Typed),
    nonFiniteEntries? entries = firstNonFinite? (floatsOf (entryParts entries))
  | [] => rfl
  | (key, v) :: rest => by
      rw [nonFiniteEntries?, entryParts, firstNonFinite?_append, firstNonFinite?_append,
        nonFinite?_eq .key key, nonFinite?_eq .value v, nonFiniteEntries?_eq rest]

theorem nonFiniteField?_eq : ∀ fields : List (String × Typed),
    nonFiniteField? fields = firstNonFinite? (floatsOf (fieldParts fields))
  | [] => rfl
  | (_, v) :: rest => by
      rw [nonFiniteField?, fieldParts, firstNonFinite?_append, nonFinite?_eq .value v,
        nonFiniteField?_eq rest]

end

theorem nonFinite?_eq_none_iff {v : Typed} :
    nonFinite? v = none ↔ ∀ x ∈ v.floats, x.isFinite = true := by
  rw [nonFinite?_eq .value, firstNonFinite?, Option.map_eq_none_iff, List.find?_eq_none]
  simp [floats]

/-! ### The conversion goes through if every part is fit -/

theorem firstOf_eq_none_iff {a b : Option Float} : firstOf a b = none ↔ a = none ∧ b = none := by
  cases a <;> simp [firstOf]

theorem isFinite_of_if {α : Type} {finite : Bool} {x : α}
    (h : (if finite then none else some x) = none) : finite = true := by
  cases finite
  · cases h
  · rfl

/-- A key whose floats are finite has a text exactly if it is one of those that have one. -/
theorem exists_keyText_iff : ∀ key : Typed, nonFinite? key = none →
    ((∃ text, keyText key = .ok text) ↔ IsKey key)
  | .bool b, _ => iff_of_true ⟨_, rfl⟩ (.bool b)
  | .signed n, _ => iff_of_true ⟨_, rfl⟩ (.signed n)
  | .unsigned n, _ => iff_of_true ⟨_, rfl⟩ (.unsigned n)
  | .wide n, _ => iff_of_true ⟨_, rfl⟩ (.wide n)
  | .char c, _ => iff_of_true ⟨_, rfl⟩ (.char c)
  | .text s, _ => iff_of_true ⟨_, rfl⟩ (.text s)
  | .variant name, _ => iff_of_true ⟨_, rfl⟩ (.variant name)
  | .single x, h => iff_of_true ⟨_, if_pos (isFinite_of_if h)⟩ (.single x)
  | .double x, h => iff_of_true ⟨_, if_pos (isFinite_of_if h)⟩ (.double x)
  | .wrapper key, h => by
      refine (exists_keyText_iff key h).trans ⟨.wrapper, fun hwrapper => ?_⟩
      cases hwrapper with
      | wrapper hkey => exact hkey
  | .bytes _, _ | .absent, _ | .present _, _ | .sequence _, _ | .map _, _ | .record _, _
  | .variantOf _ _, _ | .variantSequence _ _, _ | .variantRecord _ _, _ =>
      iff_of_false (by rintro ⟨_, h⟩; cases h) (by rintro ⟨⟩)

/-- A value comes first among its own parts. -/
theorem mem_parts_self (role : Role) (v : Typed) : (role, v) ∈ parts role v := by
  cases v <;> exact List.mem_cons_self

/-- The parts of a key are fit exactly if it has one text. -/
theorem forall_isFit_key_iff {key : Typed} : (∀ part ∈ parts .key key, IsFit part) ↔ IsKey key := by
  constructor
  · intro h
    exact h _ (mem_parts_self .key key)
  · intro h
    induction h with
    | wrapper h ih => exact List.forall_mem_cons.mpr ⟨.wrapper h, ih⟩
    | bool | signed | unsigned | wide | single | double | char | text | variant =>
        exact List.forall_mem_singleton.mpr (by constructor)

/-- Two steps go through if the first one does, and the second one whatever the first led to. -/
theorem exists_bind_iff {α β : Type} {step : Except Unwritable α} {next : α → Except Unwritable β}
    {p : Prop} (h : ∀ a, (∃ b, next a = .ok b) ↔ p) :
    (∃ b, (step >>= next) = .ok b) ↔ (∃ a, step = .ok a) ∧ p := by
  constructor
  · rintro ⟨b, hb⟩
    obtain ⟨a, ha, hnext⟩ := Outcome.bind_eq_ok.mp hb
    exact ⟨⟨a, ha⟩, (h a).mp ⟨b, hnext⟩⟩
  · rintro ⟨⟨a, ha⟩, hp⟩
    obtain ⟨b, hb⟩ := (h a).mpr hp
    exact ⟨b, Outcome.bind_eq_ok.mpr ⟨a, ha, hb⟩⟩

/-- A step whose result is then changed goes through if the step does. -/
theorem exists_map_iff {α β : Type} {step : Except Unwritable α} {f : α → β} :
    (∃ b, (do return f (← step)) = Except.ok b) ↔ ∃ a, step = .ok a :=
  (exists_bind_iff fun _ => iff_of_true ⟨_, rfl⟩ trivial).trans (iff_of_eq (and_true _))

mutual

/-- **A value whose floats are finite is converted exactly if all of its parts are fit.** -/
theorem exists_toJson_iff : ∀ v : Typed, nonFinite? v = none →
    ((∃ json, toJson v = .ok json) ↔ ∀ part ∈ parts .value v, IsFit part)
  | .wide n, _ => by
      rw [toJson]
      show _ ↔ ∀ part ∈ [(Role.value, Typed.wide n)], IsFit part
      rw [List.forall_mem_singleton]
      cases hn : Word.holds n <;> simp [IsFit, hn]
  | .present v, h => by
      simpa [toJson, parts, IsFit] using exists_toJson_iff v h
  | .wrapper v, h => by
      simpa [toJson, parts, IsFit] using exists_toJson_iff v h
  | .sequence items, h => by
      rw [toJson, exists_map_iff, exists_itemsToJson_iff items h]
      simp [parts, IsFit]
  | .map entries, h => by
      rw [toJson, exists_map_iff, exists_entriesToJson_iff entries h]
      simp [parts, IsFit]
  | .record fields, h => by
      rw [toJson, exists_map_iff, exists_fieldsToJson_iff fields h]
      simp [parts, IsFit]
  | .variantOf _ v, h => by
      rw [toJson, exists_map_iff, exists_toJson_iff v h]
      simp [parts, IsFit]
  | .variantSequence _ items, h => by
      rw [toJson, exists_map_iff, exists_itemsToJson_iff items h]
      simp [parts, IsFit]
  | .variantRecord _ fields, h => by
      rw [toJson, exists_map_iff, exists_fieldsToJson_iff fields h]
      simp [parts, IsFit]
  | .bool _, _ | .signed _, _ | .unsigned _, _ | .single _, _ | .double _, _ | .char _, _
  | .text _, _ | .bytes _, _ | .absent, _ | .variant _, _ =>
      iff_of_true ⟨_, rfl⟩ (List.forall_mem_singleton.mpr trivial)

theorem exists_itemsToJson_iff : ∀ items : List Typed, nonFiniteItem? items = none →
    ((∃ written, itemsToJson items = .ok written) ↔ ∀ part ∈ itemParts items, IsFit part)
  | [], _ => iff_of_true ⟨[], rfl⟩ (by simp [itemParts])
  | v :: rest, h => by
      obtain ⟨hv, hrest⟩ := firstOf_eq_none_iff.mp h
      rw [itemParts, List.forall_mem_append, ← exists_toJson_iff v hv,
        ← exists_itemsToJson_iff rest hrest, itemsToJson]
      exact exists_bind_iff fun _ => exists_map_iff

theorem exists_entriesToJson_iff : ∀ entries : List (Typed × Typed),
    nonFiniteEntries? entries = none →
      ((∃ written, entriesToJson entries = .ok written) ↔
        ∀ part ∈ entryParts entries, IsFit part)
  | [], _ => iff_of_true ⟨[], rfl⟩ (by simp [entryParts])
  | (key, v) :: rest, h => by
      obtain ⟨hkey, h⟩ := firstOf_eq_none_iff.mp h
      obtain ⟨hv, hrest⟩ := firstOf_eq_none_iff.mp h
      rw [entryParts, List.forall_mem_append, List.forall_mem_append, forall_isFit_key_iff,
        ← exists_keyText_iff key hkey, ← exists_toJson_iff v hv,
        ← exists_entriesToJson_iff rest hrest, entriesToJson]
      exact exists_bind_iff fun _ => exists_bind_iff fun _ => exists_map_iff

theorem exists_fieldsToJson_iff : ∀ fields : List (String × Typed),
    nonFiniteField? fields = none →
      ((∃ written, fieldsToJson fields = .ok written) ↔ ∀ part ∈ fieldParts fields, IsFit part)
  | [], _ => iff_of_true ⟨[], rfl⟩ (by simp [fieldParts])
  | (_, v) :: rest, h => by
      obtain ⟨hv, hrest⟩ := firstOf_eq_none_iff.mp h
      rw [fieldParts, List.forall_mem_append, ← exists_toJson_iff v hv,
        ← exists_fieldsToJson_iff rest hrest, fieldsToJson]
      exact exists_bind_iff fun _ => exists_map_iff

end

/-- All parts are fit if wide integers used as values are words and keys have one text. -/
theorem forall_isFit_iff {parts : List (Role × Typed)} :
    (∀ part ∈ parts, IsFit part) ↔
      (∀ n, (.value, .wide n) ∈ parts → Word.holds n = true) ∧
        ∀ key, (.key, key) ∈ parts → IsKey key := by
  constructor
  · intro h
    exact ⟨fun n hn => h _ hn, fun key hkey => h _ hkey⟩
  · rintro ⟨hwide, hkeys⟩ ⟨role, v⟩ hpart
    cases role with
    | key => exact hkeys v hpart
    | value =>
        cases v with
        | wide n => exact hwide n hpart
        | _ => trivial

end Rewards.Typed
