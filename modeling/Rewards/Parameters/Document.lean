/-
Parameter documents as text and as files.

The references of the text to variables are replaced first, and what results is read
as a YAML document, which a JSON document is too.  Whatever is wrong with the text or
with its file is a configuration problem.
-/
import Rewards.Files.Tree
import Rewards.Parameters
import Rewards.Parameters.Template
import Rewards.Yaml.Source

namespace Rewards.ParameterDocument

/-- The document that a text holds. -/
def ofText (environment : Template.Environment) (text : String) : Outcome ParameterDocument := do
  let filled ← Template.substitute environment text
  match Yaml.read ParameterDocument.read filled with
  | .ok document => return document
  | .error sentence =>
    throw (.configuration (Yaml.explained "failed to parse parameter document" sentence))

/-- The document that a file holds. -/
def ofFile (environment : Template.Environment) (tree : FileTree) (path : String) :
    Outcome ParameterDocument :=
  match tree.readText path with
  | .ok text => ofText environment text
  | .error obstacle =>
    .error (.configuration ("failed to read parameters file " ++ path ++ ": " ++ obstacle.words))

end Rewards.ParameterDocument
