/-
Arguments of the command line.

A command follows the settings that hold for all commands, and its own settings follow
the command.  A setting is two hyphens, a name and a value, which is either the next
argument or follows an equals sign; a value of its own must not look like a setting.
Each setting may be given once on either side of the command.  The rule is taken from
the variable `RULE` if no setting names it.
-/
import Rewards.Parameters.Template

namespace Rewards

/-- Where the parameters come from and which rule they are for. -/
structure ParameterArguments where
  /-- The document. -/
  parameters : Option String
  rule : Option String
  /-- The directory with a default document for each rule. -/
  inputRoot : String
deriving DecidableEq

/-- What the program is asked to do. -/
inductive Command where
  /-- Compute payments and write them into a directory. -/
  | run (arguments : ParameterArguments) (output : String)
  /-- Validate parameters and show the identity of the rule. -/
  | check (arguments : ParameterArguments)
  /-- List the rules. -/
  | rules
deriving DecidableEq

/-- What the arguments of the program ask for. -/
inductive Request where
  | perform (command : Command)
  | help
  | version
  /-- The arguments are not understood. -/
  | misuse
deriving DecidableEq

namespace Request

/-! ### Settings -/

/-- The settings that a list of arguments gives. -/
inductive Settings where
  | given (values : List (String × String))
  /-- Help is asked for before anything is wrong. -/
  | help
  | misuse

/-- Whether an argument looks like a setting. -/
def isSetting (argument : String) : Bool :=
  match argument.toList with
  | '-' :: _ :: _ => true
  | _ => false

/-- The name of a setting, and its value if it follows an equals sign. -/
def setting? (argument : String) : Option (String × Option String) :=
  match argument.toList with
  | '-' :: '-' :: rest =>
    let name := String.ofList (rest.takeWhile (· ≠ '='))
    match rest.dropWhile (· ≠ '=') with
    | _ :: value => some (name, some (String.ofList value))
    | [] => some (name, none)
  | _ => none

/-- Whether an argument consists of short flags, the first of which is `flag`. -/
def startsWithFlag (flag : Char) (argument : String) : Bool :=
  match argument.toList with
  | '-' :: c :: _ => c = flag
  | _ => false

/-- Whether a setting is a path, which must not be empty. -/
def isPath (name : String) : Bool :=
  ["parameters", "input-root", "output"].contains name

/-- Whether a setting may have a value, after some others. -/
def mayBe (known : List String) (found : List (String × String)) (name value : String) : Bool :=
  known.contains name && !(found.any fun e => e.1 = name) && !(isPath name && value = "")

/-- The settings among `known` that the rest of the arguments gives, after those found before. -/
def settings (known : List String) : List (String × String) → List String → Settings
  | found, [] => .given found
  | found, argument :: rest =>
    if argument = "--" then
      if rest.isEmpty then .given found else .misuse
    else
      match setting? argument, rest with
      | some ("help", none), _ => .help
      | some (name, some value), rest =>
        if mayBe known found name value then settings known ((name, value) :: found) rest
        else .misuse
      | some (name, none), value :: rest =>
        if !isSetting value && mayBe known found name value then
          settings known ((name, value) :: found) rest
        else .misuse
      | some (_, none), [] => .misuse
      | none, _ => if startsWithFlag 'h' argument then .help else .misuse

/-! ### Commands -/

/-- The settings for all commands. -/
def common : List String :=
  ["log-level"]

/-- The settings for parameters. -/
def forParameters : List String :=
  ["parameters", "rule", "input-root"]

/-- The arguments that settings give for parameters. -/
def parameterArguments (environment : Template.Environment) (values : List (String × String)) :
    ParameterArguments where
  parameters := values.lookup "parameters"
  rule := (values.lookup "rule").or (environment.get? "RULE")
  inputRoot := (values.lookup "input-root").getD "./input"

/-- The request of a command with its settings. -/
def ofSettings (command : List (String × String) → Command) : Settings → Request
  | .given values => .perform (command values)
  | .help => .help
  | .misuse => .misuse

/-- The request that the arguments after a command make. -/
def ofCommand (environment : Template.Environment) (command : String) (rest : List String) :
    Request :=
  match command with
  | "run" =>
    ofSettings (fun values => .run (parameterArguments environment values)
        ((values.lookup "output").getD "./output"))
      (settings (forParameters ++ ["output"] ++ common) [] rest)
  | "check" =>
    ofSettings (fun values => .check (parameterArguments environment values))
      (settings (forParameters ++ common) [] rest)
  | "rules" => ofSettings (fun _ => .rules) (settings common [] rest)
  | _ => .misuse

/-- The names of the commands. -/
def commands : List String :=
  ["run", "check", "rules"]

/-- The request for help with something. -/
def helpWith (topics : List String) : Request :=
  match topics with
  | [] => .help
  | [topic] => if (commands ++ ["help"]).contains topic then .help else .misuse
  | _ => .misuse

/-- The request that arguments make, after settings for all commands. -/
def before (environment : Template.Environment) : List (String × String) → List String → Request
  | _, [] => .misuse
  | found, argument :: rest =>
    if commands.contains argument then ofCommand environment argument rest
    else if argument = "help" then helpWith rest
    else
      match setting? argument, rest with
      | some ("help", none), _ => .help
      | some ("version", none), _ => .version
      | some (name, some value), rest =>
        if mayBe common found name value then before environment ((name, value) :: found) rest
        else .misuse
      | some (name, none), value :: rest =>
        if !isSetting value && mayBe common found name value then
          before environment ((name, value) :: found) rest
        else .misuse
      | some (_, none), [] => .misuse
      | none, _ =>
        if startsWithFlag 'h' argument then .help
        else if startsWithFlag 'V' argument then .version
        else .misuse

/-- The request that the arguments of the program make. -/
def ofArguments (environment : Template.Environment) (arguments : List String) : Request :=
  before environment [] arguments

end Request

end Rewards
