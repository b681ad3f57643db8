/-
Wildcards in paths.

A question mark stands for a character, an asterisk for any characters, and a set of
characters stands between brackets; an exclamation mark after the opening bracket
makes it the set of all others, and the first character of a set may be a bracket.
Two asterisks stand for any directories, and then they have to be a name of their own.
A text that keeps to these rules is a pattern.
-/

namespace Rewards.Wildcard

/-- Whether a name holds a character that starts a wildcard. -/
def occursIn (name : String) : Bool :=
  name.toList.any fun c => c = '*' || c = '?' || c = '['

/-- What the characters of a pattern that have been read leave open. -/
inductive Reading where
  /-- A name starts. -/
  | atStart
  /-- A name goes on. -/
  | inName
  /-- One asterisk has been read, or two, and whether they start the name. -/
  | afterAsterisk (second starting : Bool)
  /-- A bracket has been opened. -/
  | opened
  /-- An exclamation mark has followed the bracket. -/
  | negated
  /-- A set goes on that may be closed. -/
  | inSet
deriving DecidableEq

namespace Reading

/-- One more character outside all sets. -/
def name (starting : Bool) (c : Char) : Reading :=
  if c = '/' then atStart
  else if c = '*' then afterAsterisk false starting
  else if c = '[' then opened
  else inName

/-- One more character, if the rules admit it. -/
def next? (reading : Reading) (c : Char) : Option Reading :=
  match reading with
  | atStart => some (name true c)
  | inName => some (name false c)
  | afterAsterisk false starting =>
    some (if c = '*' then afterAsterisk true starting else name false c)
  | afterAsterisk true starting => if starting && c = '/' then some atStart else none
  | opened => some (if c = '!' then negated else inSet)
  | negated => some inSet
  | inSet => some (if c = ']' then inName else inSet)

/-- Whether the rules admit that nothing follows. -/
def mayEnd : Reading → Bool
  | atStart => true
  | inName => true
  | afterAsterisk second starting => !second || starting
  | _ => false

end Reading

/-- Whether a text is a pattern. -/
def isPattern (text : String) : Bool :=
  (text.toList.foldlM Reading.next? .atStart).any Reading.mayEnd

end Rewards.Wildcard
