/-
File trees and a disk.

A disk knows bytes only.  A file whose name ends in `.parquet` holds a table if its bytes
are the JSON text of one; all other files hold bytes.  What a tree does not hold yet is
looked up place by place along a path, and what has changed between two trees is a list
of places in the order in which they came about, so a directory stands before what is
in it.
-/
import Rewards.Files.Tree
import Rewards.Json.Canonical
import Rewards.Json.Reading
import Rewards.Table.Format

namespace Rewards

namespace Content

/-- The table that bytes are the text of. -/
def table? (raw : List UInt8) : Option (List Column) := do
  match ← Json.read? (← FileTree.text? raw) with
  | .array columns => columns.mapM Column.ofJson?
  | _ => none

/-- What a file of a name holds if these are its bytes. -/
def ofRaw (name : String) (raw : List UInt8) : Content :=
  if ".parquet".toList.isSuffixOf name.toList then ((table? raw).map .table).getD (.bytes raw)
  else .bytes raw

/-- The bytes of a file. -/
def raw : Content → List UInt8
  | bytes raw => raw
  | table columns => (Json.array (columns.map Column.toJson)).canonical.toUTF8.toList

end Content

namespace FileTree

/-- The places that names lead through from a place. -/
def wayFrom : Place → List String → List Place
  | place, [] => [place]
  | place, name :: rest =>
    if name = "" ∨ name = "." then wayFrom place rest
    else place :: wayFrom (if name = ".." then place.dropLast else place ++ [name]) rest

/-- The places that a path leads through, the last of which it leads to. -/
def way (tree : FileTree) (path : String) : List Place :=
  wayFrom (tree.startOf path) (Path.parts path)

/-- What a tree holds that another one before it did not. -/
def changes (before after : FileTree) : List (Place × Node) :=
  after.nodes.reverse.filter fun e => before.node? e.1 ≠ some e.2

end FileTree

end Rewards
