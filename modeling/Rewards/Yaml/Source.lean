/-
YAML documents as a source of typed values.

A part of a document is a node at its place: the steps that lead to it from the root,
and how many collections may still be opened below it.  A document opens at most 128
inside each other.  An alias stands for the node with its anchor, and a document may
follow a hundred aliases for each step that it takes to write it down; reading keeps
count.

A mapping's keys are the texts of scalars.  Where nothing is written a record, a map
or a sequence is empty.  Reading meets the parts in the order in which they are
written, so a mismatch before a fault of the text is reported, and after the fault
nothing is.
-/
import Rewards.Shape.Source
import Rewards.Yaml.Node
import Rewards.Yaml.Scalar

namespace Rewards.Yaml

open Shape

/-! ### Places -/

/-- A step from a collection to one of its members. -/
inductive Step where
  | item (index : Nat)
  | key (text : String)
  /-- To the value of a key that is not written as a scalar. -/
  | unnamed
deriving DecidableEq

/-- The text of a place, whose last step comes first. -/
def placeText : List Step → String
  | [] => ""
  | step :: before =>
    let start := placeText before
    let inside := if before.isEmpty then "" else start ++ "."
    match step with
    | .item index => start ++ "[" ++ String.ofList (Nat.toDigits 10 index) ++ "]"
    | .key text => inside ++ text
    | .unnamed => inside ++ "?"

/-- A mismatch and the place of the node that has it. -/
structure Fault where
  place : List Step
  mismatch : Mismatch

/-- A node at its place in a document. -/
structure Part where
  node : Node
  /-- The steps from the root, the last one first. -/
  place : List Step
  /-- How many collections may be opened from here. -/
  depth : Nat
  /-- The nodes that aliases stand for. -/
  anchors : List (Nat × Node)

/-- Reading with a number of aliases that may still be followed. -/
abbrev Walk := StateT Nat (Except Fault)

namespace Part

/-- Fail at a part. -/
def fail {α : Type} (p : Part) (mismatch : Mismatch) : Walk α :=
  throw ⟨p.place, mismatch⟩

/-- The part without its anchor, and without the alias that it may be. -/
def resolve (p : Part) : Walk Part :=
  match p.node with
  | .anchored _ node => return { p with node }
  | .aliasOf number => do
    match ← get, p.anchors.lookup number with
    | left + 1, some node =>
      set left
      return { p with node }
    | _, _ => p.fail .unreadable
  | _ => return p

/-- Fail at a part that is not what was expected. -/
def wrongType {α : Type} (p : Part) (expected : String) : Walk α :=
  match p.node with
  | .scalar tag style text =>
    match found tag style text with
    | .ok found => p.fail (.wrongType found expected)
    | .error mismatch => p.fail mismatch
  | .sequence _ _ _ => p.fail (.wrongType .sequence expected)
  | .mapping _ _ _ => p.fail (.wrongType .map expected)
  | _ => p.fail .unreadable

/-- Whether nothing is written at a part. -/
def isBlank (p : Part) : Bool :=
  match p.node with
  | .scalar _ .plain text => text = ""
  | _ => false

/-- The part at the end of a step from a collection. -/
def member (p : Part) (step : Step) (node : Node) : Part :=
  { p with node, place := step :: p.place, depth := p.depth - 1 }

/-- Walk the items of a sequence. -/
def foldItems {σ : Type} (step : σ → Part → Walk σ) (start : σ) (p : Part) : Walk σ := do
  let p ← p.resolve
  match p.node with
  | .sequence _ items whole =>
    if p.depth = 0 then p.fail .unreadable
    let last ← items.zipIdx.foldlM (fun s e => step s (p.member (.item e.2) e.1)) start
    if whole then return last else p.fail .unreadable
  | _ => if p.isBlank then return start else p.wrongType "a sequence"

/-- The text of a key. -/
def keyText (p : Part) (expected : String) (key : Node) : Walk String := do
  let key ← { p with node := key }.resolve
  match key.node with
  | .scalar _ _ text => return text
  | _ => key.wrongType expected

/-- The step to the value of a key. -/
def keyStep : Node → Step
  | .scalar _ _ text => .key text
  | .anchored _ (.scalar _ _ text) => .key text
  | _ => .unnamed

/-- Walk the entries of a mapping; the first key and the later ones have their expectations. -/
def foldEntries {σ : Type} (expected first later : String) (step : σ → String → Part → Walk σ)
    (start : σ) (p : Part) : Walk σ := do
  let p ← p.resolve
  match p.node with
  | .mapping _ entries whole =>
    if p.depth = 0 then p.fail .unreadable
    let last ← entries.zipIdx.foldlM (fun s ((key, value), index) => do
      let text ← p.keyText (if index = 0 then first else later) key
      step s text (p.member (keyStep key) value)) start
    if whole then return last else p.fail .unreadable
  | _ => if p.isBlank then return start else p.wrongType expected

/-- The expectation of any value at all. -/
def anything : String :=
  "any valid JSON value"

/-- What a scalar stands for as a JSON value; a double that is not finite is none. -/
def scalarValue (p : Part) : Found → Walk Json
  | .unit => return .null
  | .bool b => return .bool b
  | .integer n => return .integer n
  | .real x => return if x.isFinite then .real x else .null
  | .text s => return .text s
  | _ => p.fail .numberOutOfRange

/-- Fail at a part with a tag of the document's own. -/
def refuseLocalTag (p : Part) (tag : Option Tag) : Walk Unit :=
  if tag.any Tag.isLocal then p.fail (.wrongType .enumeration anything) else return ()

/-- Any value; `levels` is more than the collections that may be opened. -/
def value : (levels : Nat) → Part → Walk Json
  | 0, p => p.fail .unreadable
  | levels + 1, p => do
    let p ← p.resolve
    match p.node with
    | .scalar tag style text =>
      p.refuseLocalTag tag
      match found tag style text with
      | .ok found => p.scalarValue found
      | .error mismatch => p.fail mismatch
    | .sequence tag _ _ =>
      p.refuseLocalTag tag
      let items ← p.foldItems (fun read item => return (← value levels item) :: read) []
      return .array items.reverse
    | .mapping tag _ _ =>
      p.refuseLocalTag tag
      let members ← p.foldEntries anything "a string key" "a string"
        (fun (d : Dictionary Json) key v => return d.insert key (← value levels v)) .empty
      return .object members.entries
    | _ => p.fail .unreadable

mutual

/-- Whether nothing of a node has been left out. -/
def isWhole : Node → Bool
  | .scalar _ _ _ => true
  | .sequence _ items whole => areWhole items && whole
  | .mapping _ entries whole => entriesWhole entries && whole
  | .aliasOf _ => true
  | .anchored _ node => isWhole node
  | .lost => false

/-- Whether nothing of some items has been left out. -/
def areWhole : List Node → Bool
  | [] => true
  | node :: rest => isWhole node && areWhole rest

/-- Whether nothing of some entries has been left out. -/
def entriesWhole : List (Node × Node) → Bool
  | [] => true
  | (key, value) :: rest => isWhole key && isWhole value && entriesWhole rest

end

/-- The part, or nothing if it is the absent value. -/
def present? (p : Part) : Walk (Option Part) := do
  let p ← p.resolve
  match p.node with
  | .scalar tag .plain text =>
    if tag = some (.standard "null") then
      if isNull text then return none else throw ⟨p.place.drop 1, .wrongValue (.text text) "null"⟩
    else if tag = none && (text = "" || isNull text) then return none
    else return some p
  | .lost => p.fail .unreadable
  | _ => return some p

end Part

instance : Source Walk Part where
  reject := Part.fail
  whole bound type p := do
    let p ← p.resolve
    match p.node with
    | .scalar tag style text =>
      let word :=
        if isNumeric (.standard "int") tag style then natural? (Word.count 64) text else none
      match word with
      | some n => if n < bound then return n else p.fail (.wrongValue (.integer n) type)
      | none => p.wrongType type
    | _ => p.wrongType type
  real p := do
    let p ← p.resolve
    match p.node with
    | .scalar tag style text =>
      match if isNumeric (.standard "float") tag style then real? text else none with
      | some x => return x
      | none => p.wrongType "f64"
    | _ => p.wrongType "f64"
  text p := do
    let p ← p.resolve
    match p.node with
    | .scalar _ _ text => return text
    | _ => p.wrongType "a string"
  value p := p.value (p.depth + 1)
  present? := Part.present?
  skip p := if Part.isWhole p.node then return () else p.fail .unreadable
  positional? _ := none
  foldItems := Part.foldItems
  foldEntries expected key := Part.foldEntries expected key key

/-! ### Documents -/

/-- The words of mismatches in YAML: doubles are positional, whole ones with a point. -/
def wording : Wording :=
  ⟨"unit value", fun x =>
    { Decimal.Layout.positional with wholeEnding := if x.isFinite then ".0" else "" }.float x⟩

/-- The sentence for a fault, after the place where it is; there is none for a fault of the text. -/
def Fault.sentence? (fault : Fault) : Option String :=
  (fault.mismatch.sentence? wording).map fun sentence =>
    if fault.place.isEmpty then sentence else placeText fault.place ++ ": " ++ sentence

/-- What a sentence that is worth telling has in it. -/
def tellingPhrases : List String :=
  ["missing field `", "unknown field `", "duplicate field `",
    "invalid type: ", "invalid value: ", "invalid length "]

/-- Whether a phrase stands somewhere in a text. -/
def occurs (phrase : List Char) : List Char → Bool
  | [] => phrase.isEmpty
  | c :: rest => phrase.isPrefixOf (c :: rest) || occurs phrase rest

/-- Whether a sentence is worth telling. -/
def isTelling (sentence : String) : Bool :=
  tellingPhrases.any fun phrase => occurs phrase.toList sentence.toList

/-- How many collections may be opened inside each other. -/
def depthLimit : Nat := 128

/-- How many aliases may be followed for each step of a document. -/
def aliasLimit : Nat := 100

/-- The value of a shape that some characters spell out, or the sentence for why they spell out none
if one is worth telling. -/
def readChars {α : Type} (shape : Part → Walk α) (cs : List Char) : Except (Option String) α :=
  let document := Document.ofChars cs
  let root := document.root.getD .blank
  match (shape ⟨root, [], depthLimit, root.anchors.reverse⟩).run (aliasLimit * root.size) with
  | .error fault => .error (fault.sentence?.filter isTelling)
  | .ok (value, _) => if document.sound then .ok value else .error none

/-- The value of a shape that a text holds. -/
def read {α : Type} (shape : Part → Walk α) (text : String) : Except (Option String) α :=
  readChars shape text.toList

/-- A message, and the sentence that explains it if there is one. -/
def explained (message : String) (sentence : Option String) : String :=
  match sentence with
  | some sentence => message ++ ": " ++ sentence
  | none => message

end Rewards.Yaml
