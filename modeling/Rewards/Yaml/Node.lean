/-
Nodes: what a YAML document consists of.

A document is read from its tokens up to the first fault, and what stands before the
fault is kept: a collection that is cut off says so, and `Node.lost` stands for a node
that the fault left out.  So a reader meets the parts of a faulty document in order
and comes upon the fault only if it gets there.

An anchor gives a node a number, and an alias refers to a number.  The number of an
anchor is how many names have been given before it; giving a name again does not add
to them.
-/
import Rewards.Yaml.Tokens

namespace Rewards.Yaml

/-- A node of a document. -/
inductive Node where
  | scalar (tag : Option Tag) (style : Style) (text : String)
  /-- Items, and whether the end of the sequence has been read. -/
  | sequence (tag : Option Tag) (items : List Node) (whole : Bool)
  /-- Keys with their values, and whether the end of the mapping has been read. -/
  | mapping (tag : Option Tag) (entries : List (Node × Node)) (whole : Bool)
  /-- The node with an anchor of that number. -/
  | aliasOf (anchor : Nat)
  /-- A node with an anchor. -/
  | anchored (anchor : Nat) (node : Node)
  /-- A node that a fault left out. -/
  | lost

namespace Node

/-- The node where nothing is written. -/
def blank : Node :=
  .scalar none .plain ""

/-- A node with an anchor if it has one. -/
def withAnchor (anchor : Option Nat) (node : Node) : Node :=
  match anchor with
  | some number => .anchored number node
  | none => node

mutual

/-- The anchored nodes of a node, in the order of their anchors in the text. -/
def anchors : Node → List (Nat × Node)
  | .scalar _ _ _ => []
  | .sequence _ items _ => itemAnchors items
  | .mapping _ entries _ => entryAnchors entries
  | .aliasOf _ => []
  | .anchored number node => (number, node) :: anchors node
  | .lost => []

/-- The anchored nodes of some items. -/
def itemAnchors : List Node → List (Nat × Node)
  | [] => []
  | node :: rest => anchors node ++ itemAnchors rest

/-- The anchored nodes of some entries. -/
def entryAnchors : List (Node × Node) → List (Nat × Node)
  | [] => []
  | (key, value) :: rest => anchors key ++ anchors value ++ entryAnchors rest

end

mutual

/-- How many steps a node takes to write down: one for a leaf, two for a collection. -/
def size : Node → Nat
  | .scalar _ _ _ => 1
  | .sequence _ items whole => 1 + itemsSize items + whole.toNat
  | .mapping _ entries whole => 1 + entriesSize entries + whole.toNat
  | .aliasOf _ => 1
  | .anchored _ node => size node
  | .lost => 0

/-- How many steps some items take. -/
def itemsSize : List Node → Nat
  | [] => 0
  | node :: rest => size node + itemsSize rest

/-- How many steps some entries take. -/
def entriesSize : List (Node × Node) → Nat
  | [] => 0
  | (key, value) :: rest => size key + size value + entriesSize rest

end

end Node

/-- A document. -/
structure Document where
  /-- The root, unless the text holds no document at all. -/
  root : Option Node
  /-- Whether the text is sound to its end and holds no second document. -/
  sound : Bool

/-! ### From tokens to nodes -/

/-- Tokens still to be read, and what the names among them mean. -/
structure Reading where
  tokens : List Token
  /-- The number of each anchor that has been given. -/
  anchors : List (String × Nat)
  /-- What the shorthands of tags stand for. -/
  shorthands : List (String × Tag)

namespace Reading

/-- The reading without its first token. -/
def next (r : Reading) : Reading :=
  { r with tokens := r.tokens.drop 1 }

/-- The reading with one more anchor, and its number. -/
def giveAnchor (r : Reading) (name : String) : Reading × Nat :=
  let number := r.anchors.length
  ({ r with anchors := (name, number) :: r.anchors.filter (fun e => e.1 ≠ name) }, number)

/-- The reading with a node's anchor given, if it has one. -/
def giveAnchor? (r : Reading) : Option String → Reading × Option Nat
  | some name =>
    let (r, number) := r.giveAnchor name
    (r, some number)
  | none => (r, none)

/-- What a tag stands for; its shorthand must be known. -/
def tagOf (r : Reading) : Option (String × Tag) → Option (Option Tag)
  | none => some none
  | some (handle, suffix) =>
    if handle = "" then some (some suffix)
    else (r.shorthands.lookup handle).map fun expansion => some (expansion.append suffix)

/-- An anchor and a tag before a node, in either order. -/
def properties (r : Reading) : Option String × Option (String × Tag) × Reading :=
  match r.tokens with
  | .anchor name :: .tag handle suffix :: _ => (some name, some (handle, suffix), r.next.next)
  | .anchor name :: _ => (some name, none, r.next)
  | .tag handle suffix :: .anchor name :: _ => (some name, some (handle, suffix), r.next.next)
  | .tag handle suffix :: _ => (none, some (handle, suffix), r.next)
  | _ => (none, none, r)

/-- Whether the first token is one of some; there must be a first token. -/
def startsWith (r : Reading) (tokens : List Token) : Option Bool :=
  r.tokens.head?.map (tokens.contains ·)

mutual

/-- The node at the head of the tokens; `block` and `indentless` say which sequences may stand. -/
def node : Nat → (block indentless : Bool) → Reading → Node × Option Reading
  | 0, _, _, _ => (.lost, none)
  | fuel + 1, block, indentless, r =>
    match r.tokens with
    | .aliasOf name :: _ =>
      match r.anchors.lookup name with
      | some number => (.aliasOf number, some r.next)
      | none => (.lost, none)
    | _ =>
      let (anchor, tag, r) := r.properties
      match r.tokens, r.tagOf tag with
      | [], _ => (.lost, none)
      | _, none => (.lost, none)
      | first :: _, some meaning =>
        let (given, number) := r.giveAnchor? anchor
        match first, block, indentless with
        | .blockEntry, _, true =>
          let (items, whole, rest) := indentlessItems fuel given
          (.withAnchor number (.sequence meaning items whole), rest)
        | .scalar style text, _, _ =>
          (.withAnchor number (.scalar meaning style text), some given.next)
        | .flowSequenceStart, _, _ =>
          let (items, whole, rest) := flowItems fuel true given.next
          (.withAnchor number (.sequence meaning items whole), rest)
        | .flowMappingStart, _, _ =>
          let (entries, whole, rest) := flowEntries fuel true given.next
          (.withAnchor number (.mapping meaning entries whole), rest)
        | .blockSequenceStart, true, _ =>
          let (items, whole, rest) := blockItems fuel given.next
          (.withAnchor number (.sequence meaning items whole), rest)
        | .blockMappingStart, true, _ =>
          let (entries, whole, rest) := blockEntries fuel given.next
          (.withAnchor number (.mapping meaning entries whole), rest)
        | _, _, _ =>
          if anchor.isSome || tag.isSome then
            (.withAnchor number (.scalar meaning .plain ""), some given)
          else (.lost, none)

/-- The node at the head of the tokens, or a blank one if a token of `ends` stands there. -/
def nodeUnless : Nat → (ends : List Token) → (block indentless : Bool) → Reading →
    Node × Option Reading
  | 0, _, _, _, _ => (.lost, none)
  | fuel + 1, ends, block, indentless, r =>
    match r.startsWith ends with
    | none => (.lost, none)
    | some true => (.blank, some r)
    | some false => node fuel block indentless r

/-- The items of a block sequence up to its end. -/
def blockItems : Nat → Reading → List Node × Bool × Option Reading
  | 0, _ => ([], false, none)
  | fuel + 1, r =>
    match r.tokens with
    | .blockEntry :: _ =>
      match nodeUnless fuel [.blockEntry, .blockEnd] true false r.next with
      | (item, none) => ([item], false, none)
      | (item, some r) =>
        let (items, whole, rest) := blockItems fuel r
        (item :: items, whole, rest)
    | .blockEnd :: _ => ([], true, some r.next)
    | _ => ([], false, none)

/-- The items of a sequence that is indented like the key it belongs to. -/
def indentlessItems : Nat → Reading → List Node × Bool × Option Reading
  | 0, _ => ([], false, none)
  | fuel + 1, r =>
    match r.tokens with
    | .blockEntry :: _ =>
      match nodeUnless fuel [.blockEntry, .key, .value, .blockEnd] true false r.next with
      | (item, none) => ([item], false, none)
      | (item, some r) =>
        let (items, whole, rest) := indentlessItems fuel r
        (item :: items, whole, rest)
    | [] => ([], false, none)
    | _ => ([], true, some r)

/-- The value after a key: blank without the mark of a value, or if a token of `ends` follows it. -/
def valueUnless : Nat → (ends : List Token) → (block indentless : Bool) → Reading →
    Node × Option Reading
  | 0, _, _, _, _ => (.lost, none)
  | fuel + 1, ends, block, indentless, r =>
    match r.tokens with
    | .value :: _ => nodeUnless fuel ends block indentless r.next
    | [] => (.lost, none)
    | _ => (.blank, some r)

/-- The entries of a block mapping up to its end. -/
def blockEntries : Nat → Reading → List (Node × Node) × Bool × Option Reading
  | 0, _ => ([], false, none)
  | fuel + 1, r =>
    match r.tokens with
    | .key :: _ =>
      match nodeUnless fuel [.key, .value, .blockEnd] true true r.next with
      | (key, none) => ([(key, .lost)], false, none)
      | (key, some r) =>
        match valueUnless fuel [.key, .value, .blockEnd] true true r with
        | (value, none) => ([(key, value)], false, none)
        | (value, some r) =>
          let (entries, whole, rest) := blockEntries fuel r
          ((key, value) :: entries, whole, rest)
    | .blockEnd :: _ => ([], true, some r.next)
    | _ => ([], false, none)

/-- The items of a bracketed sequence up to its end; `first` if none stands before. -/
def flowItems : Nat → (first : Bool) → Reading → List Node × Bool × Option Reading
  | 0, _, _ => ([], false, none)
  | fuel + 1, first, r =>
    let afterComma := match r.tokens, first with
      | .flowSequenceEnd :: _, _ => some r
      | .flowEntry :: _, false => some r.next
      | _, true => some r
      | _, false => none
    match afterComma with
    | none => ([], false, none)
    | some r =>
      match r.tokens with
      | [] => ([], false, none)
      | .flowSequenceEnd :: _ => ([], true, some r.next)
      | .key :: _ =>
        match flowPair fuel r.next with
        | (pair, none) => ([pair], false, none)
        | (pair, some r) =>
          let (items, whole, rest) := flowItems fuel false r
          (pair :: items, whole, rest)
      | _ =>
        match node fuel false false r with
        | (item, none) => ([item], false, none)
        | (item, some r) =>
          let (items, whole, rest) := flowItems fuel false r
          (item :: items, whole, rest)

/-- A key and a value without braces, as an item of a bracketed sequence. -/
def flowPair : Nat → Reading → Node × Option Reading
  | 0, _ => (.lost, none)
  | fuel + 1, r =>
    let read := match r.startsWith [.value, .flowEntry, .flowSequenceEnd] with
      | none => (.lost, none)
      | some true => (.blank, some r.next)
      | some false => node fuel false false r
    match read with
    | (key, none) => (.mapping none [(key, .lost)] false, none)
    | (key, some r) =>
      match valueUnless fuel [.flowEntry, .flowSequenceEnd] false false r with
      | (value, none) => (.mapping none [(key, value)] false, none)
      | (value, some r) =>
        if r.tokens.isEmpty then (.mapping none [(key, value)] false, none)
        else (.mapping none [(key, value)] true, some r)

/-- The entries of a mapping in braces up to its end; `first` if none stands before. -/
def flowEntries : Nat → (first : Bool) → Reading → List (Node × Node) × Bool × Option Reading
  | 0, _, _ => ([], false, none)
  | fuel + 1, first, r =>
    let afterComma := match r.tokens, first with
      | .flowMappingEnd :: _, _ => some r
      | .flowEntry :: _, false => some r.next
      | _, true => some r
      | _, false => none
    match afterComma with
    | none => ([], false, none)
    | some r =>
      let read := match r.tokens with
        | [] => none
        | .flowMappingEnd :: _ => none
        | .key :: _ =>
          match nodeUnless fuel [.value, .flowEntry, .flowMappingEnd] false false r.next with
          | (key, none) => some (key, .lost, none)
          | (key, some r) =>
            match valueUnless fuel [.flowEntry, .flowMappingEnd] false false r with
            | (value, rest) => some (key, value, rest)
        | _ =>
          match node fuel false false r with
          | (key, none) => some (key, .lost, none)
          | (key, some r) =>
            if r.tokens.isEmpty then some (key, .lost, none) else some (key, .blank, some r)
      match read with
      | none => if r.tokens.isEmpty then ([], false, none) else ([], true, some r.next)
      | some (key, value, none) => ([(key, value)], false, none)
      | some (key, value, some r) =>
        let (entries, whole, rest) := flowEntries fuel false r
        ((key, value) :: entries, whole, rest)

end

/-- Past the directives before a document, each shorthand and the version at most once. -/
def directives : (seen : Bool) → (own : List (String × Tag)) → List Token →
    Option (List (String × Tag) × List Token)
  | seen, own, .version major minor :: rest =>
    if seen || major ≠ 1 || (minor ≠ 1 && minor ≠ 2) then none else directives true own rest
  | seen, own, .shorthand handle expansion :: rest =>
    if own.any (fun e => e.1 = handle) then none
    else directives seen ((handle, expansion) :: own) rest
  | _, own, rest => some (own, rest)

/-- The shorthands that every document knows. -/
def standard : List (String × Tag) :=
  [("!", .bare), ("!!", .standard "")]

/-- Whether the text ends after a document: marks of its end may follow, and nothing else. -/
def endsAfter (tokens : List Token) : Bool :=
  (tokens.dropWhile (· = .documentEnd)).head? = some .streamEnd

/-- The document of a text whose first node is read from a reading. -/
def document (r : Reading) : Document :=
  match node (3 * r.tokens.length + 8) true false r with
  | (root, none) => ⟨some root, false⟩
  | (root, some rest) => ⟨some root, endsAfter rest.tokens⟩

end Reading

/-- The first document of some tokens. -/
def Document.ofTokens (tokens : List Token) : Document :=
  match tokens with
  | [] => ⟨some .lost, false⟩
  | .streamEnd :: _ => ⟨none, true⟩
  | first :: _ =>
    let explicit := match first with
      | .version _ _ => true
      | .shorthand _ _ => true
      | .documentStart => true
      | _ => false
    if explicit then
      match Reading.directives false [] tokens with
      | some (own, .documentStart :: rest) =>
        let ends := match rest with
          | [] => none
          | .version _ _ :: _ => some true
          | .shorthand _ _ :: _ => some true
          | .documentStart :: _ => some true
          | .documentEnd :: _ => some true
          | .streamEnd :: _ => some true
          | _ => some false
        match ends with
        | none => ⟨some .lost, false⟩
        | some true => ⟨some .blank, Reading.endsAfter rest⟩
        | some false => Reading.document ⟨rest, [], own ++ Reading.standard⟩
      | _ => ⟨some .lost, false⟩
    else Reading.document ⟨tokens, [], Reading.standard⟩

/-- The document of a text; the text is sound only if its tokens are. -/
def Document.ofChars (cs : List Char) : Document :=
  let tokens := Tokens.ofChars cs
  let document := Document.ofTokens tokens.tokens
  { document with sound := document.sound && !tokens.faulty }

end Rewards.Yaml
