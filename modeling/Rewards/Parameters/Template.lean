/-
Templates: text with references to variables of the environment.

A reference is a dollar sign and a name between braces; a name starts with an ASCII
letter or an underscore and goes on with those and digits.  The references of the
text are taken in order.  Each one whose variable is set replaces every occurrence
of that reference in the text as it stands by then, so a value that itself holds a
reference is open to the references after it.  If variables are missing, all of them
are reported, as often as they are referred to.
-/
import Rewards.Dictionary
import Rewards.Problem

namespace Rewards.Template

/-- The variables that are set. -/
abbrev Environment := Dictionary String

/-- A character that a name may start with. -/
def isNameStart (c : Char) : Bool :=
  c.isAlpha || c = '_'

/-- A character that a name may go on with. -/
def isNameChar (c : Char) : Bool :=
  isNameStart c || c.isDigit

/-- The reference to a name. -/
def reference (name : List Char) : List Char :=
  '$' :: '\x7b' :: name ++ ['\x7d']

/-- The name of the reference that a text starts with. -/
def headName? : List Char → Option (List Char)
  | '$' :: '\x7b' :: c :: rest =>
    if isNameStart c && (rest.dropWhile isNameChar).head? = some '\x7d' then
      some (c :: rest.takeWhile isNameChar)
    else none
  | _ => none

/-- The names of the references of a text, in order. -/
def names : List Char → List (List Char)
  | [] => []
  | c :: rest =>
    match headName? (c :: rest) with
    | some name => name :: names rest
    | none => names rest

/-- Replace every occurrence of `pattern`; `skipped` characters are part of the last one. -/
def replaceFrom (pattern value : List Char) : Nat → List Char → List Char
  | _, [] => []
  | skipped + 1, _ :: rest => replaceFrom pattern value skipped rest
  | 0, c :: rest =>
    match pattern with
    | [] => c :: rest
    | _ :: tail =>
      if pattern.isPrefixOf (c :: rest) then value ++ replaceFrom pattern value tail.length rest
      else c :: replaceFrom pattern value 0 rest

/-- Replace every occurrence of `pattern`. -/
def replaceAll (pattern value text : List Char) : List Char :=
  replaceFrom pattern value 0 text

/-- The text after the references to some names, and the names that are not set. -/
def fill (environment : Environment) : List (List Char) → List Char → List Char × List String
  | [], text => (text, [])
  | name :: rest, text =>
    match environment.get? (String.ofList name) with
    | some value => fill environment rest (replaceAll (reference name) value.toList text)
    | none =>
      let (text, missing) := fill environment rest text
      (text, String.ofList name :: missing)

/-- A text with its references replaced. -/
def substitute (environment : Environment) (text : String) : Outcome String :=
  let (filled, missing) := fill environment (names text.toList) text.toList
  if missing.isEmpty then .ok (String.ofList filled)
  else
    .error (.configuration ("missing environment variable(s): " ++ ", ".intercalate missing))

end Rewards.Template
