/-
The program.

It looks up what the command needs in the environment and on the disk, performs the
command on that, brings the changes to the disk and shows the lines.
-/
import Rewards.Command.Needs
import Rewards.Files.Disk

namespace Rewards.Outside

/-- The values of some variables. -/
def environment (names : List String) : IO Template.Environment := do
  let pairs ← names.mapM fun name => do
    return (← IO.getEnv name).toList.map fun value => (name, value)
  return .ofList pairs.flatten

/-- The error number of reading a directory. -/
def directoryCode : UInt32 := 21

/-- What is at a place of the disk. -/
def look (place : Place) : IO (Option Node) := do
  try
    let raw ← IO.FS.readBinFile (Path.ofPlace place)
    return some (.file (.ofRaw (place.getLastD "") raw.toList))
  catch
    | .inappropriateType _ code _ => return if code = directoryCode then some .directory else none
    | _ => return none

/-- The tree with what is on the disk along some paths. -/
def explore (tree : FileTree) (paths : List String) : IO FileTree := do
  (paths.flatMap tree.way).foldlM (fun tree place => do
    if (tree.node? place).isSome then return tree
    match ← look place with
    | some node => return tree.set place node
    | none => return tree) tree

/-- The tree that holds the working directory only. -/
def workingDirectory : IO FileTree := do
  let path := toString (← IO.currentDir)
  let place := (Path.parts path).filter (· ≠ "")
  explore ⟨place, []⟩ [path]

/-- Bring changes to the disk. -/
def save (changes : List (Place × Node)) : IO Unit :=
  changes.forM fun (place, node) =>
    match node with
    | .directory => IO.FS.createDir (Path.ofPlace place)
    | .file content => IO.FS.writeBinFile (Path.ofPlace place) ⟨content.raw.toArray⟩

/-- Perform a command on what is on the disk. -/
def perform (command : Command) : IO (FileTree × Effect) := do
  let tree ← explore (← workingDirectory) command.documentPaths
  let environment ← environment (command.neededVariables tree)
  let tree ← (List.range Command.steps).foldlM
    (fun tree _ => explore tree (command.neededPaths environment tree)) tree
  return (tree, command.perform environment tree)

/-- Do what is asked for. -/
def fulfil (request : Request) : IO Effect := do
  match request with
  | .perform command =>
    let (before, effect) ← perform command
    save (before.changes effect.tree)
    return effect
  | request => return request.fulfil .empty ⟨[], []⟩

end Rewards.Outside

/-- Do what the arguments ask for and exit with a code that tells whether all went well. -/
def main (arguments : List String) : IO UInt32 := do
  let environment ← Rewards.Outside.environment ["RULE"]
  let effect ← Rewards.Outside.fulfil (.ofArguments environment arguments)
  effect.output.forM fun line => IO.println line
  effect.errors.forM fun line => IO.eprintln line
  return UInt32.ofNat effect.exitCode
