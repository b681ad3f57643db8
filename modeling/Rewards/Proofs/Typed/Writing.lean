/-
What can be hashed, and where a null in the hashed text comes from.

A typed value has a canonical text exactly if its floats are finite, its wide integers
are words and its keys have one text, and of floats that are not finite the first one is
reported before anything else is looked at.

The order of the two walks matters for the nulls.  The conversion alone would write null
for a float that is not finite, so that different parameters had the same text.  Behind
the check that cannot happen: a place of the JSON form is found by a path of indices and
keys, the same path leads to a part of the typed value, and where the form has null the
part is one that is absent.  The induction is on the value, one case for each way in
which a part lies in it, and carries that all floats are finite.
-/
import Rewards.Proofs.Json.Number
import Rewards.Proofs.Typed.Parts

namespace Rewards

namespace Json

/-! ### Places in a JSON value -/

/-- One step into a JSON value. -/
inductive Step where
  | item (index : Nat)
  | member (key : String)

/-- What a step leads to; of a repeated key the last member counts. -/
def into? : Json → Step → Option Json
  | .array items, .item index => items[index]?
  | .object members, .member key => lastMember? key members
  | _, _ => none

/-- What stands at a place of a JSON value. -/
def at? (v : Json) (path : List Step) : Option Json :=
  path.foldlM into? v

theorem at?_cons_eq_some_iff {v w : Json} {step : Step} {rest : List Step} :
    v.at? (step :: rest) = some w ↔ ∃ part, v.into? step = some part ∧ part.at? rest = some w := by
  rw [at?, List.foldlM_cons]
  exact Option.bind_eq_some_iff

/-- A null in a value that is not null is a null in a part of it. -/
theorem exists_into?_of_null {v : Json} {path : List Step} (hv : v ≠ .null)
    (h : v.at? path = some .null) :
    ∃ step rest w, path = step :: rest ∧ v.into? step = some w ∧ w.at? rest = some .null := by
  cases path with
  | nil => exact absurd (Option.some.inj h) hv
  | cons step rest =>
      obtain ⟨w, hw, hnull⟩ := at?_cons_eq_some_iff.mp h
      exact ⟨step, rest, w, rfl, hw, hnull⟩

/-- A number, a text and a truth value have no null in them. -/
theorem at?_ne_null {v : Json} {path : List Step} (hv : v ≠ .null)
    (hstep : ∀ step, v.into? step = none) : v.at? path ≠ some .null := by
  intro h
  obtain ⟨step, rest, w, rfl, hw, -⟩ := exists_into?_of_null hv h
  rw [hstep] at hw
  cases hw

/-- A null in an array is a null in one of its items. -/
theorem exists_item_of_null {items : List Json} {path : List Step}
    (h : (Json.array items).at? path = some .null) :
    ∃ index rest w, path = .item index :: rest ∧ items[index]? = some w ∧
      w.at? rest = some .null := by
  obtain ⟨step, rest, w, rfl, hw, hnull⟩ := exists_into?_of_null (by simp) h
  cases step with
  | item index => exact ⟨index, rest, w, rfl, hw, hnull⟩
  | member key => cases hw

/-- A null in an object is a null in the value of one of its members. -/
theorem exists_member_of_null {members : List (String × Json)} {path : List Step}
    (h : (Json.object members).at? path = some .null) :
    ∃ key rest w, path = .member key :: rest ∧ (key, w) ∈ members ∧ w.at? rest = some .null := by
  obtain ⟨step, rest, w, rfl, hw, hnull⟩ := exists_into?_of_null (by simp) h
  cases step with
  | item index => cases hw
  | member key => exact ⟨key, rest, w, rfl, mem_of_lastMember? hw, hnull⟩

/-- A null in an object with one member is a null in the value of this one. -/
theorem null_of_singleton {name : String} {v : Json} {path : List Step}
    (h : (Json.object [(name, v)]).at? path = some .null) :
    ∃ rest, path = .member name :: rest ∧ v.at? rest = some .null := by
  obtain ⟨key, rest, w, rfl, hw, hnull⟩ := exists_member_of_null h
  obtain ⟨rfl, rfl⟩ := Prod.mk.inj (List.mem_singleton.mp hw)
  exact ⟨rest, rfl, hnull⟩

end Json

namespace Typed

/-- A part of a typed value at a place of the JSON form.  What may be absent, and what is
wrapped, stands at the same place as the value in it. -/
inductive PartAt : Typed → List Json.Step → Typed → Prop
  | self (v : Typed) : PartAt v [] v
  | present {v w : Typed} {path : List Json.Step} (h : PartAt v path w) : PartAt (.present v) path w
  | wrapper {v w : Typed} {path : List Json.Step} (h : PartAt v path w) : PartAt (.wrapper v) path w
  | item {items : List Typed} {index : Nat} {v w : Typed} {path : List Json.Step}
      (hv : items[index]? = some v) (h : PartAt v path w) :
      PartAt (.sequence items) (.item index :: path) w
  | entry {entries : List (Typed × Typed)} {key v w : Typed} {name : String}
      {path : List Json.Step} (hv : (key, v) ∈ entries) (hkey : keyText key = .ok name)
      (h : PartAt v path w) : PartAt (.map entries) (.member name :: path) w
  | field {fields : List (String × Typed)} {name : String} {v w : Typed} {path : List Json.Step}
      (hv : (name, v) ∈ fields) (h : PartAt v path w) :
      PartAt (.record fields) (.member name :: path) w
  | variantOf {name : String} {v w : Typed} {path : List Json.Step} (h : PartAt v path w) :
      PartAt (.variantOf name v) (.member name :: path) w
  | variantItem {name : String} {items : List Typed} {index : Nat} {v w : Typed}
      {path : List Json.Step} (hv : items[index]? = some v) (h : PartAt v path w) :
      PartAt (.variantSequence name items) (.member name :: .item index :: path) w
  | variantField {name field : String} {fields : List (String × Typed)} {v w : Typed}
      {path : List Json.Step} (hv : (field, v) ∈ fields) (h : PartAt v path w) :
      PartAt (.variantRecord name fields) (.member name :: .member field :: path) w

/-! ### Nulls of a value whose floats are finite -/

/-- Bytes are written as an array without null. -/
theorem bytes_at?_ne_null {raw : List UInt8} {path : List Json.Step} :
    (Json.array (raw.map fun b => .natural b.toNat)).at? path ≠ some .null := by
  intro h
  obtain ⟨index, rest, w, rfl, hw, hnull⟩ := Json.exists_item_of_null h
  rw [List.getElem?_map] at hw
  obtain ⟨b, -, rfl⟩ := Option.map_eq_some_iff.mp hw
  exact Json.at?_ne_null (by simp [Json.natural, Json.integer]) (fun _ => rfl) hnull

mutual

/-- **Where the JSON form has null, the value is absent**, if its floats are finite. -/
theorem partAt_of_null : ∀ (v : Typed) {json : Json} {path : List Json.Step},
    nonFinite? v = none → toJson v = .ok json → json.at? path = some .null → PartAt v path .absent
  | .absent, json, path, _, hjson, hnull => by
      cases hjson
      cases path with
      | nil => exact .self .absent
      | cons step rest =>
          obtain ⟨w, hw, -⟩ := Json.at?_cons_eq_some_iff.mp hnull
          cases hw
  | .present v, _, _, hfinite, hjson, hnull => .present (partAt_of_null v hfinite hjson hnull)
  | .wrapper v, _, _, hfinite, hjson, hnull => .wrapper (partAt_of_null v hfinite hjson hnull)
  | .sequence items, json, path, hfinite, hjson, hnull => by
      obtain ⟨written, hwritten, h⟩ := Outcome.bind_eq_ok.mp hjson
      cases h
      obtain ⟨index, rest, w, rfl, hw, hrest⟩ := Json.exists_item_of_null hnull
      obtain ⟨v, hv, hpart⟩ := item_of_null items hfinite hwritten hw hrest
      exact .item hv hpart
  | .map entries, json, path, hfinite, hjson, hnull => by
      obtain ⟨written, hwritten, h⟩ := Outcome.bind_eq_ok.mp hjson
      cases h
      obtain ⟨name, rest, w, rfl, hw, hrest⟩ := Json.exists_member_of_null hnull
      obtain ⟨key, v, hv, hkey, hpart⟩ := entry_of_null entries hfinite hwritten hw hrest
      exact .entry hv hkey hpart
  | .record fields, json, path, hfinite, hjson, hnull => by
      obtain ⟨written, hwritten, h⟩ := Outcome.bind_eq_ok.mp hjson
      cases h
      obtain ⟨name, rest, w, rfl, hw, hrest⟩ := Json.exists_member_of_null hnull
      obtain ⟨v, hv, hpart⟩ := field_of_null fields hfinite hwritten hw hrest
      exact .field hv hpart
  | .variantOf name v, json, path, hfinite, hjson, hnull => by
      obtain ⟨written, hwritten, h⟩ := Outcome.bind_eq_ok.mp hjson
      cases h
      obtain ⟨rest, rfl, hrest⟩ := Json.null_of_singleton hnull
      exact .variantOf (partAt_of_null v hfinite hwritten hrest)
  | .variantSequence name items, json, path, hfinite, hjson, hnull => by
      obtain ⟨written, hwritten, h⟩ := Outcome.bind_eq_ok.mp hjson
      cases h
      obtain ⟨inside, rfl, hinside⟩ := Json.null_of_singleton hnull
      obtain ⟨index, rest, w, rfl, hw, hrest⟩ := Json.exists_item_of_null hinside
      obtain ⟨v, hv, hpart⟩ := item_of_null items hfinite hwritten hw hrest
      exact .variantItem hv hpart
  | .variantRecord name fields, json, path, hfinite, hjson, hnull => by
      obtain ⟨written, hwritten, h⟩ := Outcome.bind_eq_ok.mp hjson
      cases h
      obtain ⟨inside, rfl, hinside⟩ := Json.null_of_singleton hnull
      obtain ⟨field, rest, w, rfl, hw, hrest⟩ := Json.exists_member_of_null hinside
      obtain ⟨v, hv, hpart⟩ := field_of_null fields hfinite hwritten hw hrest
      exact .variantField hv hpart
  | .single x, json, path, hfinite, hjson, hnull => by
      rw [toJson, if_pos (isFinite_of_if hfinite)] at hjson
      cases hjson
      exact absurd hnull (Json.at?_ne_null (by simp [Json.real]) fun _ => rfl)
  | .double x, json, path, hfinite, hjson, hnull => by
      rw [toJson_double (isFinite_of_if hfinite)] at hjson
      cases hjson
      exact absurd hnull (Json.at?_ne_null (by simp [Json.real]) fun _ => rfl)
  | .wide n, json, path, _, hjson, hnull => by
      rw [toJson] at hjson
      split at hjson
      · cases hjson
        exact absurd hnull (Json.at?_ne_null (by simp [Json.integer]) fun _ => rfl)
      · cases hjson
  | .bytes _, _, _, _, hjson, hnull => by
      cases hjson
      exact absurd hnull bytes_at?_ne_null
  | .bool _, _, _, _, hjson, hnull | .signed _, _, _, _, hjson, hnull
  | .unsigned _, _, _, _, hjson, hnull | .char _, _, _, _, hjson, hnull
  | .text _, _, _, _, hjson, hnull | .variant _, _, _, _, hjson, hnull => by
      cases hjson
      exact absurd hnull (Json.at?_ne_null (by simp [Json.integer, Json.natural]) fun _ => rfl)

theorem item_of_null : ∀ (items : List Typed) {written : List Json} {index : Nat} {w : Json}
    {path : List Json.Step}, nonFiniteItem? items = none → itemsToJson items = .ok written →
      written[index]? = some w → w.at? path = some .null →
        ∃ v, items[index]? = some v ∧ PartAt v path .absent
  | [], _, _, _, _, _, hwritten, hw, _ => by
      cases hwritten
      cases hw
  | v :: rest, written, index, w, path, hfinite, hwritten, hw, hnull => by
      obtain ⟨hv, hrest⟩ := firstOf_eq_none_iff.mp hfinite
      obtain ⟨first, hfirst, h⟩ := Outcome.bind_eq_ok.mp hwritten
      obtain ⟨others, hothers, h⟩ := Outcome.bind_eq_ok.mp h
      cases h
      cases index with
      | zero =>
          obtain rfl := Option.some.inj hw
          exact ⟨v, rfl, partAt_of_null v hv hfirst hnull⟩
      | succ index => exact item_of_null rest hrest hothers hw hnull

theorem entry_of_null : ∀ (entries : List (Typed × Typed)) {written : List (String × Json)}
    {name : String} {w : Json} {path : List Json.Step}, nonFiniteEntries? entries = none →
      entriesToJson entries = .ok written → (name, w) ∈ written →
        w.at? path = some .null →
          ∃ key v, (key, v) ∈ entries ∧ keyText key = .ok name ∧ PartAt v path .absent
  | [], _, _, _, _, _, hwritten, hw, _ => by
      cases hwritten
      cases hw
  | (key, v) :: rest, written, name, w, path, hfinite, hwritten, hw, hnull => by
      obtain ⟨-, hfinite⟩ := firstOf_eq_none_iff.mp hfinite
      obtain ⟨hv, hrest⟩ := firstOf_eq_none_iff.mp hfinite
      obtain ⟨text, htext, h⟩ := Outcome.bind_eq_ok.mp hwritten
      obtain ⟨first, hfirst, h⟩ := Outcome.bind_eq_ok.mp h
      obtain ⟨others, hothers, h⟩ := Outcome.bind_eq_ok.mp h
      cases h
      rcases List.mem_cons.mp hw with hw | hw
      · obtain ⟨rfl, rfl⟩ := Prod.mk.inj hw
        exact ⟨key, v, List.mem_cons_self, htext, partAt_of_null v hv hfirst hnull⟩
      · obtain ⟨key, v, hmem, hkey, hpart⟩ := entry_of_null rest hrest hothers hw hnull
        exact ⟨key, v, List.mem_cons_of_mem _ hmem, hkey, hpart⟩

theorem field_of_null : ∀ (fields : List (String × Typed)) {written : List (String × Json)}
    {name : String} {w : Json} {path : List Json.Step}, nonFiniteField? fields = none →
      fieldsToJson fields = .ok written → (name, w) ∈ written →
        w.at? path = some .null → ∃ v, (name, v) ∈ fields ∧ PartAt v path .absent
  | [], _, _, _, _, _, hwritten, hw, _ => by
      cases hwritten
      cases hw
  | (field, v) :: rest, written, name, w, path, hfinite, hwritten, hw, hnull => by
      obtain ⟨hv, hrest⟩ := firstOf_eq_none_iff.mp hfinite
      obtain ⟨first, hfirst, h⟩ := Outcome.bind_eq_ok.mp hwritten
      obtain ⟨others, hothers, h⟩ := Outcome.bind_eq_ok.mp h
      cases h
      rcases List.mem_cons.mp hw with hw | hw
      · obtain ⟨rfl, rfl⟩ := Prod.mk.inj hw
        exact ⟨v, List.mem_cons_self, partAt_of_null v hv hfirst hnull⟩
      · obtain ⟨v, hmem, hpart⟩ := field_of_null rest hrest hothers hw hnull
        exact ⟨v, List.mem_cons_of_mem _ hmem, hpart⟩

end

/-! ### The canonical text -/

/-- A value has a text if its floats are finite and it is converted. -/
theorem canonical_eq_ok_iff {v : Typed} {text : String} :
    v.canonical = .ok text ↔
      nonFinite? v = none ∧ ∃ json, toJson v = .ok json ∧ text = json.canonical := by
  unfold canonical write
  cases nonFinite? v with
  | some x => simp
  | none => cases toJson v <;> simp [eq_comm]

theorem nonFinite?_of_find? {v : Typed} {x : Floating}
    (h : v.floats.find? (fun y => !y.isFinite) = some x) : nonFinite? v = some x.toDouble := by
  rw [nonFinite?_eq .value, firstNonFinite?]
  exact congrArg (Option.map Floating.toDouble) h

/--
**A float that is not finite never gets into a text.**  A value has a canonical text exactly if
all of its floats are finite, the wide integers used as values are words, and every key is of a
kind that has one text.  If some floats are not finite, the first one in the order of the
document is the one reported, whatever else is wrong with the value.  And a text is that of the
JSON form, which has null only where the value is absent; the numbers in it are never written so.
-/
theorem texts_of_finite_floats_only (v : Typed) :
    ((∃ text, v.canonical = .ok text) ↔
      (∀ x ∈ v.floats, x.isFinite = true) ∧
        (∀ n, (.value, .wide n) ∈ v.parts .value → Word.holds n = true) ∧
        ∀ key, (.key, key) ∈ v.parts .value → IsKey key) ∧
    (∀ x, v.floats.find? (fun y => !y.isFinite) = some x →
      v.canonical = .error (.configuration
        ("parameters are not serializable: " ++ ("non-finite number " ++ floatText x.toDouble)))) ∧
    ∀ text, v.canonical = .ok text → ∃ json : Json, v.toJson = .ok json ∧ text = json.canonical ∧
      (∀ path, json.at? path = some .null → PartAt v path .absent) ∧
      ∀ path n, json.at? path = some (.number n) → Number.chars n ≠ "null".toList := by
  refine ⟨⟨?_, ?_⟩, ?_, ?_⟩
  · rintro ⟨text, htext⟩
    obtain ⟨hfinite, json, hjson, -⟩ := canonical_eq_ok_iff.mp htext
    exact ⟨nonFinite?_eq_none_iff.mp hfinite,
      forall_isFit_iff.mp ((exists_toJson_iff v hfinite).mp ⟨json, hjson⟩)⟩
  · rintro ⟨hfloats, hfit⟩
    have hfinite := nonFinite?_eq_none_iff.mpr hfloats
    obtain ⟨json, hjson⟩ := (exists_toJson_iff v hfinite).mpr (forall_isFit_iff.mpr hfit)
    exact ⟨json.canonical, canonical_eq_ok_iff.mpr ⟨hfinite, json, hjson, rfl⟩⟩
  · intro x hx
    exact canonical_of_nonFinite (nonFinite?_of_find? hx)
  · intro text htext
    obtain ⟨hfinite, json, hjson, rfl⟩ := canonical_eq_ok_iff.mp htext
    exact ⟨json, hjson, rfl, fun path hnull => partAt_of_null v hfinite hjson hnull,
      fun path n _ => Number.chars_ne_null n⟩

/-- A float that a later entry would replace is reported, in spite of a key without a text. -/
example : (Typed.map [(.absent, .bool true), (.text "a", .present (.double (1.0 / 0.0))),
    (.text "a", .double 1.0)]).canonical =
      .error (.configuration "parameters are not serializable: non-finite number inf") := by
  decide +kernel

end Typed

end Rewards
