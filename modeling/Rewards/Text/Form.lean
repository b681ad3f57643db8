/-
Forms of text.

Parameters are held to three of them.  A text without the blanks around it should have
something left, a lower-case identifier starts with a lower-case ASCII letter or an
underscore and goes on with those and digits, and an address is `0x` and forty hexadecimal
digits.  The last two describe the whole text, so neither admits a line break at the end.

Blank are the characters with the Unicode property `White_Space`: the five ASCII controls
from tab to carriage return, the next-line control, and the spaces and separators of all
scripts.  A zero-width space is not one of them.

Snake case is a form that names are given: words in lower case with underscores between
them.  An upper-case ASCII letter starts a word.  It becomes lower case, and an underscore
separates it from what comes before, if anything does.
-/
import Rewards.Text.Hex

namespace Rewards.Text

/-! ### Blanks -/

/-- Whether a character is blank. -/
def isBlank (c : Char) : Bool :=
  let n := c.toNat
  (0x09 ≤ n && n ≤ 0x0d) || n = 0x20 || n = 0x85 || n = 0xa0 || n = 0x1680 ||
    (0x2000 ≤ n && n ≤ 0x200a) || n = 0x2028 || n = 0x2029 || n = 0x202f || n = 0x205f || n = 0x3000

/-- Whether all characters of a text are blank; so are none of no characters. -/
def allBlank (s : String) : Bool :=
  s.toList.all isBlank

/-- A text without the blanks at its two ends. -/
def trimmed (s : String) : String :=
  String.ofList ((s.toList.dropWhile isBlank).reverse.dropWhile isBlank).reverse

/-! ### Identifiers and addresses -/

/-- A lower-case letter or an underscore. -/
def isIdentifierStart (c : Char) : Bool :=
  c.isLower || c = '_'

/-- A lower-case letter, an underscore or a digit. -/
def isIdentifierChar (c : Char) : Bool :=
  isIdentifierStart c || c.isDigit

/-- Whether a text is a lower-case identifier. -/
def isIdentifier (s : String) : Bool :=
  match s.toList with
  | [] => false
  | c :: rest => isIdentifierStart c && rest.all isIdentifierChar

/-- Whether a text is an address. -/
def isAddress (s : String) : Bool :=
  match s.toList with
  | '0' :: 'x' :: digits => digits.length = 40 && digits.all Hex.isDigit
  | _ => false

/-! ### Snake case -/

/-- Text that comes after other text, in snake case. -/
def snakeTail : List Char → List Char
  | [] => []
  | c :: rest => if c.isUpper then '_' :: c.toLower :: snakeTail rest else c :: snakeTail rest

/-- A text in snake case. -/
def snakeCase (s : String) : String :=
  match s.toList with
  | [] => ""
  | c :: rest => String.ofList (c.toLower :: snakeTail rest)

end Rewards.Text
