/-
JSON values written by way of typed values.

A record is hashed as the canonical text of its JSON form, and the way there goes
through a typed value: first every float is looked at, then every integer has to fit a
word.  A JSON value all of whose numbers pass both checks comes out as itself, so its
canonical text is the one that is hashed; one with a float that is not finite is
refused, whatever else is in it.
-/
import Mathlib
import Rewards.Typed

namespace Rewards

theorem Word.holds_toNat (n : UInt64) : Word.holds n.toNat = true := by
  have hn : n.toNat < Word.count 64 := n.toNat_lt
  have hnonneg : (0 : Int) ≤ n.toNat := Int.natCast_nonneg _
  have hlow : -(Word.count 63 : Int) ≤ 0 := by decide
  have hhigh : (n.toNat : Int) < Word.count 64 := Int.ofNat_lt.mpr hn
  simp only [Word.holds, Bool.and_eq_true, decide_eq_true_eq]
  exact ⟨Int.le_trans hlow hnonneg, hhigh⟩

namespace Json

mutual

/-- Whether all numbers of a value can be written: floats that are finite, integers that are words. -/
def isWritable : Json → Bool
  | .number (.integer n) => Word.holds n
  | .number (.real x) => x.isFinite
  | .array items => areWritable items
  | .object members => membersWritable members
  | _ => true

/-- Whether all numbers of some items can be written. -/
def areWritable : List Json → Bool
  | [] => true
  | v :: rest => isWritable v && areWritable rest

/-- Whether all numbers of some members can be written. -/
def membersWritable : List (String × Json) → Bool
  | [] => true
  | (_, v) :: rest => isWritable v && membersWritable rest

end

end Json

namespace Typed

/-! ### A value that can be written is written as itself -/

theorem toJson_double {x : Float} (h : x.isFinite = true) : toJson (.double x) = .ok (.real x) := by
  rw [toJson, if_pos h]

/-- A record is written field by field. -/
theorem fieldsToJson_cons {name : String} {v : Typed} {value : Json}
    {fields : List (String × Typed)} {members : List (String × Json)} (hv : toJson v = .ok value)
    (hrest : fieldsToJson fields = .ok members) :
    fieldsToJson ((name, v) :: fields) = .ok ((name, value) :: members) := by
  rw [fieldsToJson, hv, hrest]
  rfl

theorem toJson_record {fields : List (String × Typed)} {members : List (String × Json)}
    (h : fieldsToJson fields = .ok members) : toJson (.record fields) = .ok (.object members) := by
  rw [toJson, h]
  rfl

mutual

theorem nonFinite?_ofJson : ∀ v : Json, v.isWritable = true → nonFinite? (ofJson v) = none
  | .null, _ => rfl
  | .bool _, _ => rfl
  | .text _, _ => rfl
  | .number (.integer _), _ => rfl
  | .number (.real x), h => by
      have hx : x.isFinite = true := h
      rw [ofJson, nonFinite?, if_pos hx]
  | .array items, h => by
      rw [ofJson, nonFinite?]
      exact nonFiniteItem?_ofItems items h
  | .object members, h => by
      rw [ofJson, nonFinite?]
      exact nonFiniteField?_ofMembers members h

theorem nonFiniteItem?_ofItems : ∀ items : List Json, Json.areWritable items = true →
    nonFiniteItem? (ofItems items) = none
  | [], _ => rfl
  | v :: rest, h => by
      obtain ⟨hv, hrest⟩ := Bool.and_eq_true_iff.mp h
      rw [ofItems, nonFiniteItem?, nonFinite?_ofJson v hv, nonFiniteItem?_ofItems rest hrest]
      rfl

theorem nonFiniteField?_ofMembers : ∀ members : List (String × Json),
    Json.membersWritable members = true → nonFiniteField? (ofMembers members) = none
  | [], _ => rfl
  | (_, v) :: rest, h => by
      obtain ⟨hv, hrest⟩ := Bool.and_eq_true_iff.mp h
      rw [ofMembers, nonFiniteField?, nonFinite?_ofJson v hv, nonFiniteField?_ofMembers rest hrest]
      rfl

end

mutual

theorem toJson_ofJson : ∀ v : Json, v.isWritable = true → toJson (ofJson v) = .ok v
  | .null, _ => rfl
  | .bool _, _ => rfl
  | .text _, _ => rfl
  | .number (.integer n), h => by
      have hn : Word.holds n = true := h
      rw [ofJson, toJson, if_pos hn]
      rfl
  | .number (.real x), h => by
      rw [ofJson, toJson_double h]
      rfl
  | .array items, h => by
      rw [ofJson, toJson, itemsToJson_ofItems items h]
      rfl
  | .object members, h => by
      rw [ofJson, toJson, fieldsToJson_ofMembers members h]
      rfl

theorem itemsToJson_ofItems : ∀ items : List Json, Json.areWritable items = true →
    itemsToJson (ofItems items) = .ok items
  | [], _ => rfl
  | v :: rest, h => by
      obtain ⟨hv, hrest⟩ := Bool.and_eq_true_iff.mp h
      rw [ofItems, itemsToJson, toJson_ofJson v hv, itemsToJson_ofItems rest hrest]
      rfl

theorem fieldsToJson_ofMembers : ∀ members : List (String × Json),
    Json.membersWritable members = true → fieldsToJson (ofMembers members) = .ok members
  | [], _ => rfl
  | (_, v) :: rest, h => by
      obtain ⟨hv, hrest⟩ := Bool.and_eq_true_iff.mp h
      rw [ofMembers, fieldsToJson, toJson_ofJson v hv, fieldsToJson_ofMembers rest hrest]
      rfl

end

/-- **A value whose numbers can be written has the canonical text of itself.** -/
theorem canonical_ofJson {v : Json} (h : v.isWritable = true) :
    (ofJson v).canonical = .ok v.canonical := by
  unfold canonical write
  rw [nonFinite?_ofJson v h, toJson_ofJson v h]

/-- A typed value with the JSON form of a value that can be written has its canonical text. -/
theorem canonical_of_toJson {v : Typed} {json : Json}
    (hfloats : v.nonFinite? = (ofJson json).nonFinite?) (hjson : v.toJson = .ok json)
    (h : json.isWritable = true) : v.canonical = .ok json.canonical := by
  unfold canonical write
  rw [hfloats, nonFinite?_ofJson json h, hjson]

/-- A value with a float that is not finite has no canonical text. -/
theorem canonical_of_nonFinite {v : Typed} {x : Float} (h : nonFinite? v = some x) :
    v.canonical =
      .error (.configuration
        ("parameters are not serializable: " ++ (Unwritable.nonFinite x).words)) := by
  unfold canonical write
  rw [h]

end Typed

end Rewards
