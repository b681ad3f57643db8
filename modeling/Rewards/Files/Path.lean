/-
Paths.

A path is a text whose components stand between slashes.  It is absolute if it
starts with one.  Joining puts a slash between two paths where there is none yet, and
an absolute path replaces what it is joined to.  Two paths name the same place by
their components when they differ only in repeated slashes, in a slash at the end and
in single dots after the first component; a double dot is a component like any other.
-/

namespace Rewards.Path

/-- Whether a path starts at the root. -/
def isAbsolute (path : String) : Bool :=
  path.toList.head? = some '/'

/-- A path and another one inside it. -/
def join (path inner : String) : String :=
  if isAbsolute inner then inner
  else if path = "" ∨ path.toList.getLast? = some '/' then path ++ inner
  else path ++ "/" ++ inner

/-- The parts of a text between the slashes in it. -/
def split : List Char → List (List Char)
  | [] => [[]]
  | c :: rest =>
    if c = '/' then [] :: split rest
    else
      match split rest with
      | [] => [[c]]
      | part :: parts => (c :: part) :: parts

/-- The parts of a path between its slashes, empty ones among them. -/
def parts (path : String) : List String :=
  (split path.toList).map String.ofList

/-- Whether a path is absolute, and its components. -/
def components (path : String) : Bool × List String :=
  match isAbsolute path, parts path with
  | false, "." :: rest => (false, "." :: rest.filter (fun c => c ≠ "" && c ≠ "."))
  | absolute, all => (absolute, all.filter (fun c => c ≠ "" && c ≠ "."))

/-- The absolute path of a place, given by the names from the root down. -/
def ofPlace (place : List String) : String :=
  "/" ++ "/".intercalate place

end Rewards.Path
