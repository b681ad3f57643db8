/-
Positions in YAML text.

A cursor is the rest of the text and where it starts: how many octets lie before it, in
which line, and in which column.  Columns count characters.  A line ends at a line
feed, a carriage return, the two together, a next-line control, or a line or paragraph
separator.
-/

namespace Rewards.Yaml

/-- Whether a character ends a line. -/
def isBreak (c : Char) : Bool :=
  c = '\n' || c = '\r' || c = '\u0085' || c = '\u2028' || c = '\u2029'

/-- Whether a character is a space or a tab. -/
def isSpace (c : Char) : Bool :=
  c = ' ' || c = '\t'

/-- Whether a character may stand in YAML text. -/
def isAllowed (c : Char) : Bool :=
  let n := c.toNat
  n = 0x09 || n = 0x0a || n = 0x0d || (0x20 ≤ n && n ≤ 0x7e) || n = 0x85 ||
    (0xa0 ≤ n && n ≤ 0xd7ff) || (0xe000 ≤ n && n ≤ 0xfffd) || 0x10000 ≤ n

/-- A letter, a digit, an underscore or a hyphen, all of ASCII. -/
def isWordChar (c : Char) : Bool :=
  c.isAlphanum || c = '_' || c = '-'

/-- How many octets characters have in UTF-8. -/
def octetCount (cs : List Char) : Nat :=
  cs.foldl (fun n c => n + c.utf8Size) 0

/-- The rest of a text and its position. -/
structure Cursor where
  rest : List Char
  /-- How many octets in UTF-8 lie before the rest. -/
  index : Nat
  line : Nat
  column : Nat

namespace Cursor

/-- The cursor at the start of a text, after a byte order mark if there is one. -/
def start (text : List Char) : Cursor :=
  match text with
  | '\ufeff' :: rest => ⟨rest, 0, 0, 0⟩
  | rest => ⟨rest, 0, 0, 0⟩

/-- The character at a distance, `none` after the end. -/
def peek (c : Cursor) (distance : Nat := 0) : Option Char :=
  c.rest[distance]?

/-- Whether the character at a distance is `x`. -/
def looksAt (c : Cursor) (x : Char) (distance : Nat := 0) : Bool :=
  c.peek distance == some x

/-- Whether the character at a distance is a space or a tab. -/
def spaceAt (c : Cursor) (distance : Nat := 0) : Bool :=
  (c.peek distance).any isSpace

/-- Whether the character at a distance ends a line. -/
def breakAt (c : Cursor) (distance : Nat := 0) : Bool :=
  (c.peek distance).any isBreak

/-- Whether the line or the text ends at a distance. -/
def lineEndAt (c : Cursor) (distance : Nat := 0) : Bool :=
  (c.peek distance).all isBreak

/-- Whether a word ends at a distance: at a space, a tab, or the end of the line or text. -/
def wordEndAt (c : Cursor) (distance : Nat := 0) : Bool :=
  (c.peek distance).all (fun x => isSpace x || isBreak x)

/-- Past one character of a line. -/
def skip (c : Cursor) : Cursor :=
  match c.rest with
  | [] => c
  | x :: rest => ⟨rest, c.index + x.utf8Size, c.line, c.column + 1⟩

/-- Past some characters of a line. -/
def skipMany (c : Cursor) : Nat → Cursor
  | 0 => c
  | n + 1 => c.skip.skipMany n

/-- Past the end of a line, with the text that it stands for. -/
def readBreak (c : Cursor) : Cursor × List Char :=
  match c.rest with
  | '\r' :: '\n' :: rest => (⟨rest, c.index + 2, c.line + 1, 0⟩, ['\n'])
  | x :: rest =>
    if isBreak x then
      (⟨rest, c.index + x.utf8Size, c.line + 1, 0⟩, [if x = '\u2028' ∨ x = '\u2029' then x else '\n'])
    else (c, [])
  | [] => (c, [])

/-- Past the end of a line. -/
def skipBreak (c : Cursor) : Cursor :=
  c.readBreak.1

/-- Past the characters that satisfy a condition, with those characters. -/
def readWhile (c : Cursor) (p : Char → Bool) : Cursor × List Char :=
  let taken := c.rest.takeWhile p
  (⟨c.rest.dropWhile p, c.index + octetCount taken, c.line, c.column + taken.length⟩, taken)

/-- Past the characters that satisfy a condition. -/
def skipWhile (c : Cursor) (p : Char → Bool) : Cursor :=
  (c.readWhile p).1

/-- Whether three hyphens or three dots stand alone at the start of a line. -/
def atDocumentMark (c : Cursor) : Bool :=
  c.column = 0 && c.wordEndAt 3 &&
    ((c.looksAt '-' && c.looksAt '-' 1 && c.looksAt '-' 2) ||
      (c.looksAt '.' && c.looksAt '.' 1 && c.looksAt '.' 2))

end Cursor

end Rewards.Yaml
