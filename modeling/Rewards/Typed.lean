/-
Typed values: data with the types it was declared with.

JSON knows six kinds of values; a program declares many more.  A typed value keeps
the difference until it is written: between one word and two, a single and a double,
a name without data and a text, an optional value and a wrapper.

To be written as JSON, first every float in it must be finite, keys of maps
included; the first that is not, in the order of the document and a key before its
value, is the one reported, whatever else is wrong.  Then integers of 128 bits must
fit a word, and a key must be something that has one text: a text, a character, a
name without data, a truth value, a number, or a wrapper of one of these.

The check of the floats is a walk of its own before the conversion.  By itself the
conversion has no objection to a float that is not finite and writes null in its place.
-/
import Rewards.Json.Canonical
import Rewards.Problem
import Rewards.Word

namespace Rewards

/-- A value with its declared type. -/
inductive Typed where
  | bool (b : Bool)
  /-- A signed integer of at most 64 bits. -/
  | signed (n : Int64)
  /-- An unsigned integer of at most 64 bits. -/
  | unsigned (n : UInt64)
  /-- An integer of 128 bits. -/
  | wide (n : Int)
  | single (x : Float32)
  | double (x : Float)
  | char (c : Char)
  | text (s : String)
  | bytes (raw : List UInt8)
  /-- The absent value, of an optional type or of a type with one value. -/
  | absent
  /-- A value of an optional type that is there. -/
  | present (v : Typed)
  /-- A record of one value without a name. -/
  | wrapper (v : Typed)
  /-- A sequence, a tuple, or a record of values without names. -/
  | sequence (items : List Typed)
  | map (entries : List (Typed × Typed))
  | record (fields : List (String × Typed))
  /-- One of several names, without data. -/
  | variant (name : String)
  /-- One of several names with one value. -/
  | variantOf (name : String) (v : Typed)
  /-- One of several names with values. -/
  | variantSequence (name : String) (items : List Typed)
  /-- One of several names with fields. -/
  | variantRecord (name : String) (fields : List (String × Typed))

namespace Typed

/-! ### Floats that are not finite -/

/-- The text of a double in messages. -/
def floatText (x : Float) : String :=
  String.ofList (Decimal.Layout.positional.float x)

/-- The first of two, if there is one. -/
def firstOf (a b : Option Float) : Option Float :=
  match a with
  | some x => some x
  | none => b

mutual

/-- The first float that is not finite. -/
def nonFinite? : Typed → Option Float
  | .single x => if x.isFinite then none else some x.toFloat
  | .double x => if x.isFinite then none else some x
  | .present v => nonFinite? v
  | .wrapper v => nonFinite? v
  | .sequence items => nonFiniteItem? items
  | .map entries => nonFiniteEntries? entries
  | .record fields => nonFiniteField? fields
  | .variantOf _ v => nonFinite? v
  | .variantSequence _ items => nonFiniteItem? items
  | .variantRecord _ fields => nonFiniteField? fields
  | _ => none

/-- The first float of some items that is not finite. -/
def nonFiniteItem? : List Typed → Option Float
  | [] => none
  | v :: rest => firstOf (nonFinite? v) (nonFiniteItem? rest)

/-- The first float of some entries that is not finite. -/
def nonFiniteEntries? : List (Typed × Typed) → Option Float
  | [] => none
  | (key, v) :: rest => firstOf (nonFinite? key) (firstOf (nonFinite? v) (nonFiniteEntries? rest))

/-- The first float of some fields that is not finite. -/
def nonFiniteField? : List (String × Typed) → Option Float
  | [] => none
  | (_, v) :: rest => firstOf (nonFinite? v) (nonFiniteField? rest)

end

/-! ### Writing as JSON -/

/-- Why a typed value has no JSON form. -/
inductive Unwritable where
  | nonFinite (x : Float)
  | numberOutOfRange
  | keyNotText
  | keyNotFinite
deriving DecidableEq

/-- The words for why a value has no JSON form. -/
def Unwritable.words : Unwritable → String
  | .nonFinite x => "non-finite number " ++ floatText x
  | .numberOutOfRange => "number out of range"
  | .keyNotText => "key must be a string"
  | .keyNotFinite => "float key must be finite (got NaN or +/-inf)"

/-- The text of a key. -/
def keyText : Typed → Except Unwritable String
  | .bool b => .ok (if b then "true" else "false")
  | .signed n => .ok (String.ofList (Number.integerChars n.toInt))
  | .unsigned n => .ok (String.ofList (Number.integerChars n.toNat))
  | .wide n => .ok (String.ofList (Number.integerChars n))
  | .single x =>
    if x.isFinite then .ok (String.ofList (Number.singleLayout.float32 x)) else .error .keyNotFinite
  | .double x =>
    if x.isFinite then .ok (String.ofList (Number.layout.float x)) else .error .keyNotFinite
  | .char c => .ok (String.ofList [c])
  | .text s => .ok s
  | .wrapper v => keyText v
  | .variant name => .ok name
  | _ => .error .keyNotText

mutual

/-- The JSON form of a value; a float that is not finite becomes null. -/
def toJson : Typed → Except Unwritable Json
  | .bool b => .ok (.bool b)
  | .signed n => .ok (.integer n.toInt)
  | .unsigned n => .ok (.natural n.toNat)
  | .wide n =>
    if Word.holds n then .ok (.integer n) else .error .numberOutOfRange
  | .single x => .ok (if x.isFinite then .real x.toFloat else .null)
  | .double x => .ok (if x.isFinite then .real x else .null)
  | .char c => .ok (.text (String.ofList [c]))
  | .text s => .ok (.text s)
  | .bytes raw => .ok (.array (raw.map fun b => .natural b.toNat))
  | .absent => .ok .null
  | .present v => toJson v
  | .wrapper v => toJson v
  | .sequence items => do return .array (← itemsToJson items)
  | .map entries => do return .object (← entriesToJson entries)
  | .record fields => do return .object (← fieldsToJson fields)
  | .variant name => .ok (.text name)
  | .variantOf name v => do return .object [(name, ← toJson v)]
  | .variantSequence name items => do return .object [(name, .array (← itemsToJson items))]
  | .variantRecord name fields => do return .object [(name, .object (← fieldsToJson fields))]

/-- The JSON forms of items, the first failure first. -/
def itemsToJson : List Typed → Except Unwritable (List Json)
  | [] => .ok []
  | v :: rest => do
    let item ← toJson v
    return item :: (← itemsToJson rest)

/-- The JSON forms of entries, a key before its value. -/
def entriesToJson : List (Typed × Typed) → Except Unwritable (List (String × Json))
  | [] => .ok []
  | (key, v) :: rest => do
    let name ← keyText key
    let value ← toJson v
    return (name, value) :: (← entriesToJson rest)

/-- The JSON forms of fields. -/
def fieldsToJson : List (String × Typed) → Except Unwritable (List (String × Json))
  | [] => .ok []
  | (name, v) :: rest => do
    let value ← toJson v
    return (name, value) :: (← fieldsToJson rest)

end

/-- The JSON form of a value whose floats are finite. -/
def write (v : Typed) : Except Unwritable Json :=
  match nonFinite? v with
  | some x => .error (.nonFinite x)
  | none => toJson v

/-- The canonical JSON text of a value. -/
def canonical (v : Typed) : Outcome String :=
  match v.write with
  | .ok json => .ok json.canonical
  | .error why => .error (.configuration ("parameters are not serializable: " ++ why.words))

/-! ### JSON values as typed values -/

mutual

/-- A JSON value as a typed value. -/
def ofJson : Json → Typed
  | .null => .absent
  | .bool b => .bool b
  | .number (.integer n) => .wide n
  | .number (.real x) => .double x
  | .text s => .text s
  | .array items => .sequence (ofItems items)
  | .object members => .record (ofMembers members)

/-- JSON items as typed values. -/
def ofItems : List Json → List Typed
  | [] => []
  | v :: rest => ofJson v :: ofItems rest

/-- JSON members as typed fields. -/
def ofMembers : List (String × Json) → List (String × Typed)
  | [] => []
  | (key, v) :: rest => (key, ofJson v) :: ofMembers rest

end

end Typed

end Rewards
