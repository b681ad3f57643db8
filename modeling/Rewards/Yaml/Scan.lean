/-
Scanning the content of single tokens: scalars, anchors, tags and directives.

Each function starts at the first character of its token and returns the cursor after
the last one, or nothing if the token is at fault.  A line break inside a scalar is
folded: one break becomes a space, and of several the first is dropped.  Literal
blocks keep their breaks.
-/
import Rewards.Decimal.Reading
import Rewards.Text.Hex
import Rewards.Yaml.Cursor
import Rewards.Yaml.Token

namespace Rewards.Yaml

/-! ### Line folding -/

/-- What stands between two words of a scalar: spaces in a line, or line breaks. -/
structure Gap where
  /-- The spaces before the first break, reversed. -/
  spaces : List Char
  /-- The first break. -/
  first : List Char
  /-- The breaks after the first, reversed. -/
  more : List Char
  /-- Whether there is a break. -/
  broken : Bool

namespace Gap

/-- Nothing between two words. -/
def none : Gap :=
  ⟨[], [], [], false⟩

/-- The gap after a break that is escaped. -/
def escaped : Gap :=
  ⟨[], [], [], true⟩

/-- What a gap stands for, reversed. -/
def folded (g : Gap) : List Char :=
  if g.broken then
    if g.first = ['\n'] then if g.more.isEmpty then [' '] else g.more
    else g.more ++ g.first.reverse
  else g.spaces

/-- Past spaces, tabs and breaks; `tabAllowed` says at which columns of a later line a tab may stand. -/
def read (tabAllowed : Nat → Bool) : Nat → Gap → Cursor → Option (Gap × Cursor)
  | 0, g, c => some (g, c)
  | fuel + 1, g, c =>
    match c.peek with
    | some x =>
      if isSpace x then
        if g.broken then
          if x = '\t' && !tabAllowed c.column then Option.none
          else read tabAllowed fuel g c.skip
        else read tabAllowed fuel { g with spaces := x :: g.spaces } c.skip
      else if isBreak x then
        let (next, text) := c.readBreak
        if g.broken then read tabAllowed fuel { g with more := text.reverse ++ g.more } next
        else read tabAllowed fuel ⟨[], text, [], true⟩ next
      else some (g, c)
    | Option.none => some (g, c)

end Gap

/-! ### Plain scalars -/

/-- Whether a character ends a plain scalar inside brackets or braces. -/
def isFlowEnd (c : Char) : Bool :=
  c = ',' || c = '[' || c = ']' || c = '\x7b' || c = '\x7d'

/-- Past the characters of one word of a plain scalar; `none` if a colon stands where it must not. -/
def plainWord (flow : Bool) : Nat → List Char → Cursor → Option (List Char × Cursor)
  | 0, word, c => some (word, c)
  | fuel + 1, word, c =>
    match c.peek with
    | none => some (word, c)
    | some x =>
      if isSpace x || isBreak x then some (word, c)
      else if flow && x = ':' && (c.peek 1).any (fun y => isFlowEnd y || y = '?') then none
      else if (x = ':' && c.wordEndAt 1) || (flow && isFlowEnd x) then some (word, c)
      else plainWord flow fuel (x :: word) c.skip

/-- The words of a plain scalar; whether a line break follows the last is returned too. -/
def plainWords (flow : Bool) (indent : Nat) :
    Nat → List Char → Gap → Cursor → Option (List Char × Bool × Cursor)
  | 0, text, g, c => some (text, g.broken, c)
  | fuel + 1, text, g, c =>
    if c.atDocumentMark || c.looksAt '#' then some (text, g.broken, c)
    else
      match plainWord flow (c.rest.length + 1) [] c with
      | none => none
      | some (word, next) =>
        let (text, g) :=
          if word.isEmpty then (text, g) else (word ++ g.folded ++ text, Gap.none)
        if !(next.spaceAt || next.breakAt) then some (text, g.broken, next)
        else
          match Gap.read (fun column => indent ≤ column) (next.rest.length + 1) g next with
          | none => none
          | some (g, next) =>
            if !flow && next.column < indent then some (text, g.broken, next)
            else plainWords flow indent fuel text g next

/-- A plain scalar in a block whose content starts at column `indent`; whether a break follows it. -/
def plainScalar (flow : Bool) (indent : Nat) (c : Cursor) : Option (String × Bool × Cursor) :=
  (plainWords flow indent (c.rest.length + 1) [] Gap.none c).map fun (text, broken, next) =>
    (String.ofList text.reverse, broken, next)

/-! ### Quoted scalars -/

/-- The character of a one-letter escape. -/
def escapeOf : Char → Option Char
  | '0' => some '\x00'
  | 'a' => some '\x07'
  | 'b' => some '\x08'
  | 't' => some '\t'
  | '\t' => some '\t'
  | 'n' => some '\n'
  | 'v' => some '\x0b'
  | 'f' => some '\x0c'
  | 'r' => some '\r'
  | 'e' => some '\x1b'
  | ' ' => some ' '
  | '"' => some '"'
  | '/' => some '/'
  | '\\' => some '\\'
  | 'N' => some '\u0085'
  | '_' => some '\u00a0'
  | 'L' => some '\u2028'
  | 'P' => some '\u2029'
  | _ => none

/-- How many hexadecimal digits follow the letter of an escape. -/
def escapeLength : Char → Option Nat
  | 'x' => some 2
  | 'u' => some 4
  | 'U' => some 8
  | _ => none

/-- The character of an escape after its backslash, and the cursor after it. -/
def escape (c : Cursor) : Option (Char × Cursor) := do
  let letter ← c.peek
  match escapeOf letter with
  | some x => some (x, c.skip)
  | none =>
    let length ← escapeLength letter
    let digits := (c.rest.drop 1).take length
    if digits.length < length then none
    let code ← Decimal.natOfDigits? 16 Hex.digit? digits
    if (0xd800 ≤ code ∧ code ≤ 0xdfff) ∨ 0x10ffff < code then none
    some (Char.ofNat code, c.skipMany (length + 1))

/-- Past the characters of one word of a quoted scalar, and whether an escaped break ends it. -/
def quotedWord (single : Bool) : Nat → List Char → Cursor → Option (List Char × Bool × Cursor)
  | 0, word, c => some (word, false, c)
  | fuel + 1, word, c =>
    match c.peek with
    | none => some (word, false, c)
    | some x =>
      if isSpace x || isBreak x then some (word, false, c)
      else if single then
        if x = '\'' then
          if c.looksAt '\'' 1 then quotedWord single fuel ('\'' :: word) (c.skipMany 2)
          else some (word, false, c)
        else quotedWord single fuel (x :: word) c.skip
      else if x = '"' then some (word, false, c)
      else if x = '\\' then
        if c.breakAt 1 then some (word, true, c.skip.skipBreak)
        else
          match escape c.skip with
          | some (e, next) => quotedWord single fuel (e :: word) next
          | none => none
      else quotedWord single fuel (x :: word) c.skip

/-- The words of a quoted scalar up to its closing quote. -/
def quotedWords (single : Bool) : Nat → List Char → Cursor → Option (List Char × Cursor)
  | 0, _, _ => none
  | fuel + 1, text, c =>
    if c.atDocumentMark || c.peek.isNone then none
    else
      match quotedWord single (c.rest.length + 1) [] c with
      | none => none
      | some (word, escaped, next) =>
        let text := word ++ text
        if next.looksAt (if single then '\'' else '"') then some (text, next.skip)
        else
          match Gap.read (fun _ => true) (next.rest.length + 1)
              (if escaped then Gap.escaped else Gap.none) next with
          | none => none
          | some (g, next) => quotedWords single fuel (g.folded ++ text) next

/-- A quoted scalar. -/
def quotedScalar (single : Bool) (c : Cursor) : Option (String × Cursor) :=
  (quotedWords single (c.rest.length + 1) [] c.skip).map fun (text, next) =>
    (String.ofList text.reverse, next)

/-! ### Block scalars -/

/-- What becomes of the breaks at the end of a block scalar. -/
inductive Chomping where
  | strip
  | clip
  | keep
deriving DecidableEq

/-- The chomping that a sign asks for. -/
def chomping? (c : Cursor) : Option Chomping :=
  if c.looksAt '+' then some .keep else if c.looksAt '-' then some .strip else none

/-- The indentation that a digit asks for; zero is none. -/
def increment? (c : Cursor) : Option Nat :=
  c.peek.bind Decimal.digit?

/-- The chomping and the indentation of a block scalar, in either order. -/
def blockHeader (c : Cursor) : Option (Chomping × Nat × Cursor) :=
  match chomping? c with
  | some chomping =>
    match increment? c.skip with
    | some 0 => none
    | some n => some (chomping, n, c.skip.skip)
    | none => some (chomping, 0, c.skip)
  | none =>
    match increment? c with
    | some 0 => none
    | some n =>
      match chomping? c.skip with
      | some chomping => some (chomping, n, c.skip.skip)
      | none => some (.clip, n, c.skip)
    | none => some (.clip, 0, c)

/-- Past indentation and empty lines; the breaks reversed, and the greatest column reached. -/
def blockBreaks (indent : Nat) :
    Nat → Nat → List Char → Cursor → Option (Nat × List Char × Cursor)
  | 0, greatest, breaks, c => some (greatest, breaks, c)
  | fuel + 1, greatest, breaks, c =>
    let spaces := c.rest.takeWhile (· = ' ')
    let c := c.skipMany
      (if indent = 0 then spaces.length else min spaces.length (indent - c.column))
    let greatest := max greatest c.column
    if (indent = 0 || c.column < indent) && c.looksAt '\t' then none
    else if c.breakAt then
      let (next, text) := c.readBreak
      blockBreaks indent fuel greatest (text.reverse ++ breaks) next
    else some (greatest, breaks, c)

/-- A block scalar part way through. -/
structure BlockText where
  /-- The text, reversed. -/
  text : List Char
  /-- The break after the last line. -/
  leading : List Char
  /-- The empty lines after that, reversed. -/
  trailing : List Char
  /-- Whether the last line started with a space or a tab. -/
  indented : Bool

/-- The lines of a block scalar. -/
def blockLines (literal : Bool) (indent : Nat) :
    Nat → BlockText → Cursor → Option (BlockText × Cursor)
  | 0, b, c => some (b, c)
  | fuel + 1, b, c =>
    if c.column = indent && c.peek.isSome then
      let indented := c.spaceAt
      let text :=
        if !literal && b.leading = ['\n'] && !b.indented && !indented then
          if b.trailing.isEmpty then ' ' :: b.text else b.text
        else b.leading.reverse ++ b.text
      let (lineEnd, line) := c.readWhile (fun x => !isBreak x)
      let (next, leading) := lineEnd.readBreak
      match blockBreaks indent (next.rest.length + 1) 0 [] next with
      | none => none
      | some (_, trailing, next) =>
        blockLines literal indent fuel
          ⟨line.reverse ++ (b.trailing ++ text), leading, trailing, indented⟩ next
    else some (b, c)

/-- A block scalar in a block that starts at column `parent`, or at no column at all. -/
def blockScalar (literal : Bool) (parent : Option Nat) (c : Cursor) : Option (String × Cursor) := do
  let (chomping, increment, c) ← blockHeader c.skip
  let c := c.skipWhile isSpace
  let c := if c.looksAt '#' then c.skipWhile (fun x => !isBreak x) else c
  if !c.lineEndAt then none
  let c := c.skipBreak
  let fixed := if increment = 0 then 0 else parent.getD 0 + increment
  let (greatest, trailing, c) ← blockBreaks fixed (c.rest.length + 1) 0 [] c
  let indent :=
    if fixed = 0 then max greatest (max 1 (parent.elim 0 (· + 1))) else fixed
  let (b, c) ← blockLines literal indent (c.rest.length + 1) ⟨[], [], trailing, false⟩ c
  let text := if chomping = .strip then b.text else b.leading.reverse ++ b.text
  let text := if chomping = .keep then b.trailing ++ text else text
  some (String.ofList text.reverse, c)

/-! ### Anchors, tags and directives -/

/-- The name of an anchor or an alias. -/
def anchorName (c : Cursor) : Option (String × Cursor) :=
  let (next, name) := c.skip.readWhile isWordChar
  let ended := next.wordEndAt || next.peek.any (fun x =>
    x = '?' || x = ':' || x = ',' || x = ']' || x = '\x7d' || x = '%' || x = '@' || x = '\x60')
  if name.isEmpty || !ended then none else some (String.ofList name, next)

/-- A character of a tag. -/
def isTagChar (brackets : Bool) (c : Char) : Bool :=
  isWordChar c || c = ';' || c = '/' || c = '?' || c = ':' || c = '@' || c = '&' || c = '=' ||
    c = '+' || c = '$' || c = '.' || c = '%' || c = '!' || c = '~' || c = '*' || c = '\'' ||
    c = '(' || c = ')' || (brackets && (c = ',' || c = '[' || c = ']'))

/-- The octet of a percent escape, and the text after it. -/
def escapedOctet : List Char → Option (UInt8 × List Char)
  | '%' :: a :: b :: rest => do
    let high ← Hex.digit? a
    let low ← Hex.digit? b
    some (UInt8.ofNat (high * 16 + low), rest)
  | _ => none

/-- Escaped octets that continue a character, and the text after them. -/
def escapedRest : (count : Nat) → List Char → Option (List UInt8 × List Char)
  | 0, text => some ([], text)
  | count + 1, text => do
    let (octet, text) ← escapedOctet text
    if !Tag.continues octet then none
    let (octets, text) ← escapedRest count text
    some (octet :: octets, text)

/-- The octets of an escaped character, and the text after it. -/
def escapedOctets (text : List Char) : Option (List UInt8 × List Char) := do
  let (lead, text) ← escapedOctet text
  let width ← Tag.width? lead
  let (octets, text) ← escapedRest (width - 1) text
  some (lead :: octets, text)

/-- The octets that a text with percent escapes stands for. -/
def unescapeTag : Nat → List Char → Option (List UInt8)
  | 0, _ => none
  | _ + 1, [] => some []
  | fuel + 1, c :: rest =>
    if c = '%' then do
      let (octets, rest) ← escapedOctets (c :: rest)
      return octets ++ (← unescapeTag fuel rest)
    else do
      return Tag.octetsOf [c] ++ (← unescapeTag fuel rest)

/-- The rest of a tag; it must not be empty unless something stands before it. -/
def tagRest (brackets : Bool) (before : List Char) (c : Cursor) : Option (Tag × Cursor) := do
  let (next, raw) := c.readWhile (isTagChar brackets)
  if raw.isEmpty && before.isEmpty then none
  let octets ← unescapeTag (raw.length + 1) raw
  some (.ofOctets (Tag.octetsOf (before.drop 1) ++ octets), next)

/-- An exclamation mark, a word, and a second exclamation mark if there is one. -/
def tagHandle (c : Cursor) : Option (List Char × Cursor) :=
  if c.looksAt '!' then
    let (next, word) := c.skip.readWhile isWordChar
    if next.looksAt '!' then some ('!' :: word ++ ['!'], next.skip) else some ('!' :: word, next)
  else none

/-- A tag, as a handle and a suffix; without a handle the suffix is all of it. -/
def tag (flow : Bool) (c : Cursor) : Option (String × Tag × Cursor) := do
  let (handle, suffix, next) ←
    if c.looksAt '<' 1 then do
      let (suffix, next) ← tagRest true [] (c.skipMany 2)
      if next.looksAt '>' then some ("", suffix, next.skip) else none
    else do
      let (handle, next) ← tagHandle c
      if 1 < handle.length ∧ handle.getLast? = some '!' then
        let (suffix, next) ← tagRest false [] next
        some (String.ofList handle, suffix, next)
      else
        let (suffix, next) ← tagRest false handle next
        if suffix.isEmpty then some ("", Tag.bare, next) else some ("!", suffix, next)
  if next.wordEndAt || (flow && next.looksAt ',') then some (handle, suffix, next) else none

/-- A number of a version, of at most nine digits. -/
def versionNumber (c : Cursor) : Option (Nat × Cursor) := do
  let (next, digits) := c.readWhile Char.isDigit
  if 9 < digits.length then none
  let n ← Decimal.nat? digits
  some (n, next)

/-- A directive, with the cursor at its end. -/
def directiveBody (c : Cursor) : Option (Token × Cursor) := do
  let (next, name) := c.skip.readWhile isWordChar
  if name.isEmpty || !next.wordEndAt then none
  let next := next.skipWhile isSpace
  if name = "YAML".toList then
    let (major, next) ← versionNumber next
    if !next.looksAt '.' then none
    let (minor, next) ← versionNumber next.skip
    some (.version major minor, next)
  else if name = "TAG".toList then
    let (handle, next) ← tagHandle next
    if handle.getLast? ≠ some '!' then none
    if !next.spaceAt then none
    let (expansion, next) ← tagRest true [] (next.skipWhile isSpace)
    if !next.wordEndAt then none
    some (.shorthand (String.ofList handle) expansion, next)
  else none

/-- A directive, with the cursor at the start of the next line. -/
def directive (c : Cursor) : Option (Token × Cursor) := do
  let (token, next) ← directiveBody c
  let next := next.skipWhile isSpace
  let next := if next.looksAt '#' then next.skipWhile (fun x => !isBreak x) else next
  if !next.lineEndAt then none
  some (token, next.skipBreak)

end Rewards.Yaml
