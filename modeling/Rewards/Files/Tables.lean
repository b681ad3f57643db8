/-
The tables that a path stands for in a file tree.

A path to a file stands for that file, and a path to a directory for the files in it
whose names end like those of tables.  Files further below count only if the names on
the way to them are, but for one, of the form `key=value`.

A path with a wildcard stands for the files below the directory before it whose names
match; a pattern of several names never matches a single one, so there are none of
them.  Nothing can be read where a name holds a control character.
-/
import Rewards.Files.Tree
import Rewards.Files.Wildcard
import Rewards.Table.Stored

namespace Rewards

namespace FileTree

/-- Whether a name is free of control characters. -/
def isReadable (name : String) : Bool :=
  name.toList.all fun c => 0x20 ≤ c.toNat && c.toNat ≠ 0x7f

/-- The files below a directory, by the names that lead to them from there. -/
def filesBelow (tree : FileTree) (directory : Place) : List (Place × Content) :=
  tree.nodes.filterMap fun (place, node) =>
    match node with
    | .file content =>
      if directory.isPrefixOf place then some (place.drop directory.length, content) else none
    | .directory => none

/-- Whether a file is one of the tables of the directory from which names lead to it. -/
def isTableOf (names : Place) : Bool :=
  (names.filter (fun name => !name.toList.contains '=')).length ≤ 1 &&
    names.getLast?.any (fun name => ".parquet".toList.isSuffixOf name.toList)

/-- The files below a directory that are wanted, and those whose names cannot be read. -/
def listed (tree : FileTree) (directory : Place) (isWanted : Place → Bool) : List StoredTable :=
  (tree.filesBelow directory).filterMap fun (names, content) =>
    let path := Path.ofPlace (directory ++ names)
    if !names.all isReadable then some ⟨path, none⟩
    else if isWanted names then some ⟨path, content.columns?⟩
    else none

/-- The files that an absolute path stands for; there is nothing it stands for if it is not fit. -/
def storedTables (tree : FileTree) : TableReader := fun path =>
  let names := (Path.parts path).filter (· ≠ "")
  let directory := names.takeWhile (!Wildcard.occursIn ·)
  let pattern := names.drop directory.length
  if !directory.all isReadable then none
  else if pattern.isEmpty then
    match tree.node? names with
    | some .directory => some (tree.listed names isTableOf)
    | some (.file content) => some [⟨path, content.columns?⟩]
    | none => some [⟨path, none⟩]
  else if Wildcard.isPattern ("/".intercalate pattern) then
    some (tree.listed directory fun _ => false)
  else none

end FileTree

end Rewards
