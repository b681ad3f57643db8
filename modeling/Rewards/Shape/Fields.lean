/-
Fields: what a record consists of.

A description of fields fills a draft entry by entry, in the order of the entries,
and the first problem met is the one reported.  Only when all entries are read does
it turn to the fields that had none: those with a default take it, and the first of
the others, in the order of declaration, is missing.  Descriptions combine like the
fields themselves: `Point.mk <$> required "x" word <*> required "y" word`.

A record may also be written as the list of its fields in the order of declaration;
then it is the length that is wrong.
-/
import Rewards.Shape.Source

namespace Rewards.Shape

/-- How the fields of an `α` are read. -/
structure Fields (m : Type → Type) (ν : Type) (α : Type) where
  /-- What is known of the fields part way through. -/
  Draft : Type
  /-- The draft before the first entry. -/
  start : Draft
  /-- The names of the fields in the order of declaration. -/
  names : List String
  /-- The draft after an entry, if its key is a field. -/
  visit : Draft → String → ν → Option (m Draft)
  /-- Whether a field has been read. -/
  isRead : Draft → String → Bool
  /-- The fields, or the name of the first that is missing. -/
  finish : Draft → Except String α

namespace Fields

variable {m : Type → Type} [Monad m] {ν : Type} {α β : Type}

/-- One field; `absent` is what it is without an entry. -/
def one (name : String) (read : ν → m α) (absent : Option α) : Fields m ν α where
  Draft := Option α
  start := none
  names := [name]
  visit _ key v := if key = name then some (some <$> read v) else none
  isRead draft key := key = name && draft.isSome
  finish draft :=
    match draft, absent with
    | some a, _ => .ok a
    | none, some a => .ok a
    | none, none => .error name

/-- A field that must be there. -/
def required (name : String) (read : ν → m α) : Fields m ν α :=
  one name read none

/-- A field with a default. -/
def defaulted (name : String) (read : ν → m α) (absent : α) : Fields m ν α :=
  one name read (some absent)

instance : Functor (Fields m ν) where
  map f x := { x with finish := fun draft => f <$> x.finish draft }

instance : Seq (Fields m ν) where
  seq f x :=
    let x := x ()
    { Draft := f.Draft × x.Draft
      start := (f.start, x.start)
      names := f.names ++ x.names
      visit := fun draft key v =>
        match f.visit draft.1 key v with
        | some step => some ((·, draft.2) <$> step)
        | none => (x.visit draft.2 key v).map fun step => (draft.1, ·) <$> step
      isRead := fun draft key => f.isRead draft.1 key || x.isRead draft.2 key
      finish := fun draft => do
        let g ← f.finish draft.1
        let a ← x.finish draft.2
        return g a }

end Fields

/-- Whether a record admits keys that are none of its fields. -/
inductive Strictness where
  /-- A key that is no field is a problem. -/
  | strict
  /-- The value of a key that is no field is passed over. -/
  | lenient
deriving DecidableEq

variable {m : Type → Type} [Monad m] {ν : Type} [Source m ν] {α : Type}

/-- The draft after one entry of a record. -/
def visitEntry (strictness : Strictness) (fields : Fields m ν α) (whole : ν)
    (draft : fields.Draft) (key : String) (v : ν) : m fields.Draft :=
  if fields.isRead draft key then Source.reject whole (.duplicateField key)
  else
    match fields.visit draft key v, strictness with
    | some step, _ => step
    | none, .strict => Source.reject whole (.unknownField key fields.names)
    | none, .lenient => do
      Source.skip v
      return draft

/-- The draft after the items of a record without names, as far as there are fields for them. -/
def visitItems (fields : Fields m ν α) : fields.Draft → List String → List ν → m fields.Draft
  | draft, name :: names, v :: items => do
    match fields.visit draft name v with
    | some step => visitItems fields (← step) names items
    | none => visitItems fields draft names items
  | draft, _, _ => return draft

/-- How many fields a record has, in words. -/
def elementCount (n : Nat) : String :=
  String.ofList (Nat.toDigits 10 n) ++ (if n = 1 then " element" else " elements")

/-- A record with a name and fields. -/
def record (name : String) (strictness : Strictness) (fields : Fields m ν α) (v : ν) : m α := do
  match Source.positional? m v with
  | some items =>
    match fields.finish (← visitItems fields fields.start fields.names items) with
    | .error missing =>
      Source.reject v (.wrongLength (fields.names.idxOf missing)
        ("struct " ++ name ++ " with " ++ elementCount fields.names.length))
    | .ok a =>
      if fields.names.length < items.length then
        Source.reject v (.wrongLength items.length "fewer elements in array")
      else return a
  | none =>
    let draft ← Source.foldEntries ("struct " ++ name) "field identifier"
      (visitEntry strictness fields v) fields.start v
    match fields.finish draft with
    | .error missing => Source.reject v (.missingField missing)
    | .ok a => return a

end Rewards.Shape
