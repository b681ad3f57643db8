/-
Tokens of YAML text.

A token is a mark of structure or a piece of content.  Some marks are not written but
follow from the indentation: the start of a block sequence or mapping, its end, and
the mark before a key that is recognised only by the colon after it.
-/
import Rewards.Yaml.Tag

namespace Rewards.Yaml

/-- How a scalar is written. -/
inductive Style where
  | plain
  | singleQuoted
  | doubleQuoted
  | literal
  | folded
deriving DecidableEq

/-- A token. -/
inductive Token where
  | streamEnd
  /-- The version that a document asks for. -/
  | version (major minor : Nat)
  /-- A shorthand for the start of tags. -/
  | shorthand (handle : String) (expansion : Tag)
  | documentStart
  | documentEnd
  | blockSequenceStart
  | blockMappingStart
  | blockEnd
  | flowSequenceStart
  | flowSequenceEnd
  | flowMappingStart
  | flowMappingEnd
  | blockEntry
  | flowEntry
  | key
  | value
  | aliasOf (name : String)
  | anchor (name : String)
  /-- A tag, as a shorthand and what follows it. -/
  | tag (handle : String) (suffix : Tag)
  | scalar (style : Style) (text : String)
deriving DecidableEq

/-- The tokens of a text up to its end, or up to the first fault. -/
structure Tokens where
  tokens : List Token
  /-- Whether the text is at fault after the last token. -/
  faulty : Bool

end Rewards.Yaml
