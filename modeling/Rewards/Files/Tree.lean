/-
File trees: the files a program sees.

A tree holds directories and files, each at the place that the names from the root
down to it spell out, and a working directory from which relative paths start.
Following a path goes down name by name: a name that is not there is missing, and
nothing lies below a file.  A file holds bytes or the columns of a table; how a table
is laid out in bytes is left open, so a table cannot be read as text.

There are no symbolic links.  A file therefore lies at one place only, which is the one
that a path to it spells out, and what is said of places and of canonical paths is said
of trees without links.

Trees are values: what a program writes is the tree that it returns.
-/
import Rewards.Files.Path
import Rewards.Table.Column

namespace Rewards

/-- What a file holds. -/
inductive Content where
  | bytes (raw : List UInt8)
  | table (columns : List Column)
deriving DecidableEq

/-- The columns of a table. -/
def Content.columns? : Content → Option (List Column)
  | bytes _ => none
  | table columns => some columns

/-- What is at a place of a tree. -/
inductive Node where
  | directory
  | file (content : Content)
deriving DecidableEq

/-- Why a path does not lead where it should. -/
inductive Obstacle where
  | missing
  | alreadyThere
  | notDirectory
  | isDirectory
  | notText
deriving DecidableEq

/-- The words for an obstacle. -/
def Obstacle.words : Obstacle → String
  | missing => "No such file or directory (os error 2)"
  | alreadyThere => "File exists (os error 17)"
  | notDirectory => "Not a directory (os error 20)"
  | isDirectory => "Is a directory (os error 21)"
  | notText => "stream did not contain valid UTF-8"

/-- Names from the root down. -/
abbrev Place := List String

/-- Directories and files, and the directory from which relative paths start. -/
structure FileTree where
  workingDirectory : Place
  /-- What is where; the root is a directory without an entry. -/
  nodes : List (Place × Node)
deriving DecidableEq

namespace FileTree

/-- What is at a place. -/
def node? (tree : FileTree) (place : Place) : Option Node :=
  if place = [] then some .directory
  else (tree.nodes.find? (fun e => e.1 == place)).map (·.2)

/-- The tree with something at a place. -/
def set (tree : FileTree) (place : Place) (node : Node) : FileTree :=
  { tree with nodes := (place, node) :: tree.nodes.filter (fun e => e.1 ≠ place) }

/-- The tree without a place and all that lies below it. -/
def remove (tree : FileTree) (place : Place) : FileTree :=
  { tree with nodes := tree.nodes.filter (fun e => !place.isPrefixOf e.1) }

/-- Where a path leads from a place, and what is there. -/
def follow (tree : FileTree) : Place → List String → Except Obstacle (Place × Node)
  | place, [] =>
    match tree.node? place with
    | some node => .ok (place, node)
    | none => .error .missing
  | place, name :: rest =>
    match tree.node? place with
    | none => .error .missing
    | some (.file _) => .error .notDirectory
    | some .directory =>
      if name = "" ∨ name = "." then follow tree place rest
      else if name = ".." then follow tree place.dropLast rest
      else follow tree (place ++ [name]) rest

/-- The place that a path starts from. -/
def startOf (tree : FileTree) (path : String) : Place :=
  if Path.isAbsolute path then [] else tree.workingDirectory

/-- Where a path leads, and what is there. -/
def resolve (tree : FileTree) (path : String) : Except Obstacle (Place × Node) :=
  if path = "" then .error .missing else tree.follow (tree.startOf path) (Path.parts path)

/-- Whether a path leads anywhere. -/
def leadsAnywhere (tree : FileTree) (path : String) : Bool :=
  (tree.resolve path).isOk

/-- The absolute path, free of dots, of the place that a path leads to. -/
def canonicalPath (tree : FileTree) (path : String) : Except Obstacle String := do
  return Path.ofPlace (← tree.resolve path).1

/-- The text that bytes in UTF-8 stand for. -/
def text? (raw : List UInt8) : Option String :=
  String.fromUTF8? ⟨raw.toArray⟩

/-- The text of a file. -/
def readText (tree : FileTree) (path : String) : Except Obstacle String := do
  match (← tree.resolve path).2 with
  | .directory => .error .isDirectory
  | .file (.table _) => .error .notText
  | .file (.bytes raw) =>
    match text? raw with
    | some text => .ok text
    | none => .error .notText

/-- The columns of a table file. -/
def readTable? (tree : FileTree) (path : String) : Option (List Column) :=
  match tree.resolve path with
  | .ok (_, .file content) => content.columns?
  | _ => none

/-! ### Making directories

A path is given by its parts from a place, the last one first.
-/

/-- The parts from the last one on that is a name. -/
def fromName (parts : List String) : List String :=
  parts.dropWhile fun part => part = "" || part = "."

/-- The paths of the directories above a path, the innermost first, each ending in a name. -/
def above : List String → List (List String)
  | [] => []
  | part :: rest =>
    if part = "" ∨ part = "." ∨ fromName rest = [] then above rest
    else fromName rest :: above rest

/-- Whether a path leads to a directory. -/
def isDirectory (tree : FileTree) (start : Place) (parts : List String) : Bool :=
  match tree.follow start parts.reverse with
  | .ok (_, .directory) => true
  | _ => false

/-- The tree with a directory at a path to which a name leads from a directory that is there. -/
def makeDirectory (tree : FileTree) (start : Place) (parts : List String) :
    Except Obstacle FileTree :=
  match parts.dropWhile (· = "") with
  | [] => .error .alreadyThere
  | name :: rest => do
    match ← tree.follow start rest.reverse with
    | (_, .file _) => .error .notDirectory
    | (place, .directory) =>
      if name = "." ∨ name = ".." ∨ (tree.node? (place ++ [name])).isSome then .error .alreadyThere
      else .ok (tree.set (place ++ [name]) .directory)

/-- Make a directory at a path unless one is there; whether all went well, and the tree after it. -/
def settle (tree : FileTree) (start : Place) (parts : List String) :
    Except Obstacle Unit × FileTree :=
  match tree.makeDirectory start parts with
  | .ok made => (.ok (), made)
  | .error obstacle =>
    (if tree.isDirectory start parts then .ok () else .error obstacle, tree)

/-- Make a directory at the first of some paths, after those at the others if one is missing. -/
def settleAll (tree : FileTree) (start : Place) :
    List (List String) → Except Obstacle Unit × FileTree
  | [] => (.ok (), tree)
  | parts :: rest =>
    match tree.makeDirectory start parts with
    | .error .missing =>
      match settleAll tree start rest with
      | (.ok (), made) => made.settle start parts
      | failed => failed
    | _ => tree.settle start parts

/-- Make a directory at a path, and those above it that are missing. -/
def makeDirectories (tree : FileTree) (path : String) : Except Obstacle Unit × FileTree :=
  if path = "" then (.ok (), tree)
  else
    let parts := (Path.parts path).reverse
    tree.settleAll (tree.startOf path) (parts :: above parts)

/-! ### Writing files -/

/-- The tree with a file in a directory, in place of the file that was there. -/
def writeFile (tree : FileTree) (directory name : String) (content : Content) :
    Except Obstacle FileTree := do
  let (place, node) ← if directory = "" then tree.resolve "." else tree.resolve directory
  match node with
  | .file _ => .error .notDirectory
  | .directory =>
    match tree.node? (place ++ [name]) with
    | some .directory => .error .isDirectory
    | _ => .ok (tree.set (place ++ [name]) (.file content))

end FileTree

end Rewards
