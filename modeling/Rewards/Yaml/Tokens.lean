/-
The tokens of a text.

Indentation is kept as a stack of columns: content further right than the innermost
one opens a collection, content further left closes those it leaves.  Inside brackets
and braces indentation means nothing.

A scalar, an anchor, a tag or a bracket may turn out to be a key when a colon follows
it in the same line, and then a mark goes in before it.  So a token that may still be
a key is not given out until it is settled; at a fault, what has been given out is
what stands before the first such token.

A text is read piece by piece, and some characters may not stand in it.  Reading stops
before the piece that has one.
-/
import Rewards.Yaml.Scan

namespace Rewards.Yaml

/-- A token that may turn out to be a key. -/
structure Candidate where
  /-- Whether it must be a key, standing where the entries of a mapping do. -/
  required : Bool
  /-- Its number among the tokens. -/
  number : Nat
  line : Nat
  index : Nat
  column : Nat

/-- Whether a candidate is settled as no key: its line is over, or it is too far back. -/
def Candidate.isStale (candidate : Candidate) (c : Cursor) : Bool :=
  candidate.line < c.line || candidate.index + 1024 < c.index

/-- A text part way through. -/
structure Lexer where
  cursor : Cursor
  /-- The tokens so far, reversed. -/
  tokens : List Token
  /-- How many tokens there are. -/
  count : Nat
  /-- The columns of the open block collections, the innermost first. -/
  indents : List Nat
  /-- The candidate outside all brackets. -/
  outer : Option Candidate
  /-- The candidate inside each open bracket, the innermost first. -/
  inner : List (Option Candidate)
  /-- Whether a key may start here. -/
  keyAllowed : Bool

namespace Lexer

/-- The lexer at the start of a text. -/
def start (text : List Char) : Lexer :=
  ⟨Cursor.start text, [], 0, [], none, [], true⟩

/-- Whether a bracket or brace is open. -/
def inFlow (l : Lexer) : Bool :=
  !l.inner.isEmpty

/-- The column of the innermost open block collection. -/
def indent? (l : Lexer) : Option Nat :=
  l.indents.head?

/-- The column at which the content of the innermost block collection starts. -/
def contentIndent (l : Lexer) : Nat :=
  match l.indent? with
  | some column => column + 1
  | none => 0

/-- The candidate at the innermost level. -/
def candidate? (l : Lexer) : Option Candidate :=
  match l.inner with
  | [] => l.outer
  | candidate :: _ => candidate

/-- The lexer with another candidate at the innermost level. -/
def setCandidate (l : Lexer) (candidate : Option Candidate) : Lexer :=
  match l.inner with
  | [] => { l with outer := candidate }
  | _ :: rest => { l with inner := candidate :: rest }

/-- All candidates. -/
def candidates (l : Lexer) : List Candidate :=
  (l.outer :: l.inner).filterMap id

/-- How many tokens can be given out. -/
def settled (l : Lexer) : Nat :=
  l.candidates.foldl (fun n candidate => min n candidate.number) l.count

/-- The lexer with one more token. -/
def push (l : Lexer) (token : Token) : Lexer :=
  { l with tokens := token :: l.tokens, count := l.count + 1 }

/-- The lexer with a token put in before the one of that number. -/
def insertAt (l : Lexer) (number : Nat) (token : Token) : Lexer :=
  let after := l.count - number
  { l with
    tokens := l.tokens.take after ++ token :: l.tokens.drop after
    count := l.count + 1 }

/-- The lexer with the cursor elsewhere. -/
def moveTo (l : Lexer) (cursor : Cursor) : Lexer :=
  { l with cursor := cursor }

/-- A token of some characters, which are skipped. -/
def take (l : Lexer) (length : Nat) (token : Token) : Lexer :=
  (l.moveTo (l.cursor.skipMany length)).push token

/-- The lexer with another answer to whether a key may start. -/
def allowKey (l : Lexer) (allowed : Bool) : Lexer :=
  { l with keyAllowed := allowed }

/-! ### Candidates -/

/-- A candidate, unless it is stale; it must not be if it is required. -/
def refresh (c : Cursor) : Option Candidate → Option (Option Candidate)
  | none => some none
  | some candidate =>
    if candidate.isStale c then if candidate.required then none else some none
    else some (some candidate)

/-- The lexer without stale candidates. -/
def dropStale (l : Lexer) : Option Lexer := do
  let outer ← refresh l.cursor l.outer
  let inner ← l.inner.mapM (refresh l.cursor)
  return { l with outer := outer, inner := inner }

/-- The lexer without the candidate at the innermost level, which must not be required. -/
def dropCandidate (l : Lexer) : Option Lexer :=
  match l.candidate? with
  | some candidate => if candidate.required then none else some (l.setCandidate none)
  | none => some l

/-- The lexer with the next token as a candidate, if a key may start here. -/
def saveCandidate (l : Lexer) : Option Lexer :=
  if l.keyAllowed then
    l.dropCandidate.map fun l =>
      l.setCandidate (some
        ⟨!l.inFlow && l.indent? = some l.cursor.column, l.count, l.cursor.line, l.cursor.index,
          l.cursor.column⟩)
  else some l

/-! ### Indentation -/

/-- Whether a column is further right than the innermost open block collection. -/
def opensAt (l : Lexer) (column : Nat) : Bool :=
  !l.inFlow && l.indent?.all (· < column)

/-- The lexer with a collection opened at a column, if it is further right. -/
def openAt (l : Lexer) (column : Nat) (token : Token) : Lexer :=
  if l.opensAt column then { (l.push token) with indents := column :: l.indents } else l

/-- The lexer with a collection opened before a token, if its column is further right. -/
def openBefore (l : Lexer) (column number : Nat) (token : Token) : Lexer :=
  if l.opensAt column then { (l.insertAt number token) with indents := column :: l.indents } else l

/-- Close the collections of some columns. -/
def closeAll : List Nat → Lexer → Lexer
  | [], l => l
  | _ :: rest, l => closeAll rest (l.push .blockEnd)

/-- The lexer with the collections closed that a column leaves. -/
def closeTo (l : Lexer) (column : Nat) : Lexer :=
  if l.inFlow then l
  else
    { closeAll (l.indents.takeWhile (column < ·)) l with
      indents := l.indents.dropWhile (column < ·) }

/-- The lexer with all collections closed. -/
def closeEvery (l : Lexer) : Lexer :=
  if l.inFlow then l else { closeAll l.indents l with indents := [] }

/-! ### One token -/

/-- Past blanks, comments and line ends; a tab may not stand where a key may start. -/
def skipToToken : Nat → Lexer → Lexer
  | 0, l => l
  | fuel + 1, l =>
    let c := if l.cursor.column = 0 && l.cursor.looksAt '\ufeff' then l.cursor.skip else l.cursor
    let c := c.skipWhile (fun x => x = ' ' || (x = '\t' && (l.inFlow || !l.keyAllowed)))
    let c := if c.looksAt '#' then c.skipWhile (fun x => !isBreak x) else c
    if c.breakAt then
      skipToToken fuel { l with cursor := c.skipBreak, keyAllowed := l.keyAllowed || !l.inFlow }
    else l.moveTo c

/-- A mark that closes everything before it. -/
def topLevel (l : Lexer) : Option Lexer :=
  l.closeEvery.dropCandidate.map (·.allowKey false)

/-- The end of the text. -/
def atEnd (l : Lexer) : Option Lexer :=
  l.topLevel.map (·.push .streamEnd)

/-- A directive. -/
def atDirective (l : Lexer) : Option Lexer := do
  let l ← l.topLevel
  let (token, next) ← directive l.cursor
  return (l.moveTo next).push token

/-- An opening bracket or brace. -/
def atFlowStart (l : Lexer) (token : Token) : Option Lexer :=
  l.saveCandidate.map fun l =>
    ({ l with inner := none :: l.inner, keyAllowed := true }).take 1 token

/-- A closing bracket or brace. -/
def atFlowEnd (l : Lexer) (token : Token) : Option Lexer :=
  l.dropCandidate.map fun l =>
    ({ l with inner := l.inner.drop 1, keyAllowed := false }).take 1 token

/-- A comma between items. -/
def atFlowEntry (l : Lexer) : Option Lexer :=
  l.dropCandidate.map fun l => (l.allowKey true).take 1 .flowEntry

/-- A hyphen before an item. -/
def atBlockEntry (l : Lexer) : Option Lexer := do
  if !l.inFlow && !l.keyAllowed then none
  let l := l.openAt l.cursor.column .blockSequenceStart
  let l ← l.dropCandidate
  return (l.allowKey true).take 1 .blockEntry

/-- A question mark before a key. -/
def atKey (l : Lexer) : Option Lexer := do
  if !l.inFlow && !l.keyAllowed then none
  let l := l.openAt l.cursor.column .blockMappingStart
  let l ← l.dropCandidate
  return (l.allowKey (!l.inFlow)).take 1 .key

/-- A colon after a key. -/
def atValue (l : Lexer) : Option Lexer :=
  match l.candidate? with
  | some candidate =>
    let l := l.insertAt candidate.number .key
    let l := l.openBefore candidate.column candidate.number .blockMappingStart
    some (((l.setCandidate none).allowKey false).take 1 .value)
  | none =>
    if !l.inFlow && !l.keyAllowed then none
    else
      let l := l.openAt l.cursor.column .blockMappingStart
      some ((l.allowKey (!l.inFlow)).take 1 .value)

/-- A name after an ampersand or an asterisk. -/
def atName (l : Lexer) (token : String → Token) : Option Lexer := do
  let l ← l.saveCandidate
  let (name, next) ← anchorName l.cursor
  return ((l.allowKey false).moveTo next).push (token name)

/-- A tag. -/
def atTag (l : Lexer) : Option Lexer := do
  let l ← l.saveCandidate
  let (handle, suffix, next) ← tag l.inFlow l.cursor
  return ((l.allowKey false).moveTo next).push (.tag handle suffix)

/-- A block scalar. -/
def atBlockScalar (l : Lexer) (literal : Bool) : Option Lexer := do
  let l ← l.dropCandidate
  let (text, next) ← blockScalar literal l.indent? l.cursor
  return ((l.allowKey true).moveTo next).push (.scalar (if literal then .literal else .folded) text)

/-- A quoted scalar. -/
def atQuoted (l : Lexer) (single : Bool) : Option Lexer := do
  let l ← l.saveCandidate
  let (text, next) ← quotedScalar single l.cursor
  return ((l.allowKey false).moveTo next).push
    (.scalar (if single then .singleQuoted else .doubleQuoted) text)

/-- A plain scalar; a key may start after it if a line break does. -/
def atPlain (l : Lexer) : Option Lexer := do
  let l ← l.saveCandidate
  let (text, broken, next) ← plainScalar l.inFlow l.contentIndent l.cursor
  return ((l.allowKey broken).moveTo next).push (.scalar .plain text)

/-- Whether a character that marks structure stands at the cursor. -/
def isIndicator (c : Char) : Bool :=
  c = '-' || c = '?' || c = ':' || c = ',' || c = '[' || c = ']' || c = '\x7b' || c = '\x7d' ||
    c = '#' || c = '&' || c = '*' || c = '!' || c = '|' || c = '>' || c = '\'' || c = '"' ||
    c = '%' || c = '@' || c = '\x60'

/-- Whether a plain scalar may start with this character here. -/
def startsPlain (l : Lexer) (x : Char) : Bool :=
  (!isSpace x && !isBreak x && !isIndicator x) ||
    (x = '-' && !l.cursor.spaceAt 1) ||
    (!l.inFlow && (x = '?' || x = ':') && !l.cursor.wordEndAt 1)

/-- The token that starts with a character. -/
def atChar (l : Lexer) (x : Char) : Option Lexer :=
  let marks := l.inFlow || l.cursor.wordEndAt 1
  if l.cursor.column = 0 && x = '%' then l.atDirective
  else if l.cursor.atDocumentMark then
    l.topLevel.map (·.take 3 (if x = '-' then .documentStart else .documentEnd))
  else if x = '[' then l.atFlowStart .flowSequenceStart
  else if x = '\x7b' then l.atFlowStart .flowMappingStart
  else if x = ']' then l.atFlowEnd .flowSequenceEnd
  else if x = '\x7d' then l.atFlowEnd .flowMappingEnd
  else if x = ',' then l.atFlowEntry
  else if x = '-' && l.cursor.wordEndAt 1 then l.atBlockEntry
  else if x = '?' && marks then l.atKey
  else if x = ':' && marks then l.atValue
  else if x = '*' then l.atName .aliasOf
  else if x = '&' then l.atName .anchor
  else if x = '!' then l.atTag
  else if x = '|' && !l.inFlow then l.atBlockScalar true
  else if x = '>' && !l.inFlow then l.atBlockScalar false
  else if x = '\'' then l.atQuoted true
  else if x = '"' then l.atQuoted false
  else if l.startsPlain x then l.atPlain
  else none

/-- Whether so many characters are left. -/
def hasLeft (l : Lexer) (count : Nat) : Bool :=
  (l.cursor.rest.take count).length = count

/-- The lexer after the next token and the marks before it, if so many characters are left there. -/
def step (margin : Nat) (l : Lexer) : Option Lexer := do
  let l ← (skipToToken (l.cursor.rest.length + 1) l).dropStale
  let l := l.closeTo l.cursor.column
  if !l.hasLeft margin then none
  let l ← match l.cursor.peek with
    | none => l.atEnd
    | some x => l.atChar x
  if !l.hasLeft margin then none
  l.dropStale

/-- All tokens, or those that can be given out before the first fault. -/
def run (margin : Nat) : Nat → Lexer → Tokens
  | 0, l => ⟨l.tokens.reverse, true⟩
  | fuel + 1, l =>
    match l.step margin with
    | none => ⟨l.tokens.reverse.take l.settled, true⟩
    | some next =>
      if next.tokens.head? = some .streamEnd then ⟨next.tokens.reverse, false⟩
      else run margin fuel next

end Lexer

/-! ### Texts -/

/-- How many octets of a text are read at a time. -/
def pieceSize : Nat := 16384

/-- The characters of a text that fit into some octets, and those after them. -/
def splitPiece : (room : Nat) → List Char → List Char × List Char
  | _, [] => ([], [])
  | room, c :: rest =>
    if c.utf8Size ≤ room then
      let (piece, more) := splitPiece (room - c.utf8Size) rest
      (c :: piece, more)
    else ([], c :: rest)

/-- A text up to the piece with the first character that may not stand in it. -/
def allowedPieces : Nat → List Char → List Char
  | 0, _ => []
  | fuel + 1, text =>
    let (piece, more) := splitPiece pieceSize text
    if piece.isEmpty || !piece.all isAllowed then [] else piece ++ allowedPieces fuel more

/-- How many characters beyond a token are looked at. -/
def lookahead : Nat := 4

/-- The tokens of a text; a piece with a character that may not stand in it cannot be looked at. -/
def Tokens.ofChars (cs : List Char) : Tokens :=
  let allowed := allowedPieces (cs.length + 1) cs
  let margin := if allowed.length < cs.length then lookahead else 0
  Lexer.run margin (allowed.length + 2) (.start allowed)

end Rewards.Yaml
