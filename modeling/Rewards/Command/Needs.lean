/-
What a command needs to know of the world.

A command looks at files and at variables.  The arguments name the document of
parameters; the document refers to variables and names datasets; and datasets name
partitions.  So what a command needs is told in steps, each from the files that are known
by then: after the document, after the descriptions of its datasets, and after that.
-/
import Rewards.Command

namespace Rewards.Command

/-- The number of steps in which all that a command needs is told. -/
def steps : Nat := 3

/-- The arguments for the parameters of a command that has any. -/
def parameters? : Command → Option ParameterArguments
  | .run arguments _ => some arguments
  | .check arguments => some arguments
  | .rules => none

/-- The document of parameters that a command reads. -/
def documentPaths (command : Command) : List String :=
  match command.parameters? with
  | none => []
  | some arguments => (parametersPath arguments).toOption.toList

/-- The variables that the document of a command refers to. -/
def neededVariables (tree : FileTree) (command : Command) : List String :=
  command.documentPaths.flatMap fun path =>
    match tree.readText path with
    | .ok text => (Template.names text.toList).map String.ofList
    | .error _ => []

/-- The partitions of a table in a dataset that some cycles need. -/
def partitionPaths (tree : FileTree) (document : ParameterDocument) (root table : String) :
    List String :=
  match Dataset.load tree root with
  | .error _ => []
  | .ok dataset =>
    (document.run.paymentCycles document.core.cycleLength).flatMap fun cycle =>
      match document.core.cycleRange? cycle, dataset.config.table table with
      | some range, .ok config =>
        (Partition.select range dataset.latest.latestBlock config.partitionSizes).map
          (dataset.config.partitionPath root table)
      | _, _ => []

/-- The files of a table that is stored at a location. -/
def tablePaths (tree : FileTree) (document : ParameterDocument) (table location : String) :
    List String :=
  match PartitionStore.directory location with
  | .error _ => []
  | .ok root =>
    Path.join root "config.yaml" :: Path.join root "latest.yaml" ::
      partitionPaths tree document root table

/-- The files of all tables of a document. -/
def dataPaths (tree : FileTree) (document : ParameterDocument) : List String :=
  document.core.locations.entries.flatMap fun e => tablePaths tree document e.1 e.2

/-- The paths that a command looks at, as far as the files known so far tell. -/
def neededPaths (environment : Template.Environment) (tree : FileTree) (command : Command) :
    List String :=
  command.documentPaths ++
    match command with
    | .run arguments output =>
      Handoff.filePath output ::
        match load environment tree arguments with
        | .error _ => []
        | .ok loaded => dataPaths tree loaded.document
    | _ => []

end Rewards.Command
