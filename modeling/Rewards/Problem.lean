/-
Problems: the ways in which configuring or evaluating a rule fails, and steps that may.

There are three.  A configuration problem is found while parameters are read and a
rule is built.  A missing operation is found when a rule is asked for what it does
not provide.  An execution problem comes from the storage or from a query; it has a
context, and a cause that the message repeats unless the query engine keeps it to
itself.  None is worth a second try: the same inputs lead to the same problem.

An outcome is a result or a problem.  An action is a step that has an outcome and may
change a state.  A step that fails still leaves a state behind, the one it had reached;
so whoever runs the next step starts from what really happened.
-/

namespace Rewards

/-- What lies behind a failed execution. -/
inductive Cause where
  /-- A cause that the message repeats. -/
  | told (text : String)
  /-- A cause inside the query engine, whose wording is no part of the message. -/
  | withheld
deriving DecidableEq

/-- Why a rule could not be built or evaluated. -/
inductive Problem where
  /-- Parameters are missing or invalid. -/
  | configuration (text : String)
  /-- A rule does not provide an operation. -/
  | missingOperation (rule operation : String)
  /-- The storage or a query failed. -/
  | execution (context : String) (cause : Cause)
deriving DecidableEq

namespace Problem

/-- The kind of a problem. -/
inductive Category where
  | configuration
  | missingOperation
  | execution
deriving DecidableEq

/-- The name of a category in messages. -/
def Category.name : Category → String
  | configuration => "config"
  | missingOperation => "missing_implementation"
  | execution => "execution"

/-- The kind of a problem. -/
def category : Problem → Category
  | .configuration _ => .configuration
  | .missingOperation _ _ => .missingOperation
  | .execution _ _ => .execution

/-- The text of the cause, where there is one that is told. -/
def source? : Problem → Option String
  | .execution _ (.told text) => some text
  | _ => none

/-- Whether trying again could succeed; it never could. -/
def isRetryable (_ : Problem) : Bool :=
  false

/-- What went wrong, without the category. -/
def body : Problem → String
  | .configuration text => text
  | .missingOperation rule operation => "rule '" ++ rule ++ "' does not implement `" ++ operation ++ "`"
  | .execution context (.told text) => context ++ ": " ++ text
  | .execution context .withheld => context

/-- The message of a problem. -/
def message (p : Problem) : String :=
  "[" ++ p.category.name ++ "] " ++ p.body

end Problem

/-- A result, or the problem that stood in its way. -/
abbrev Outcome (α : Type) := Except Problem α

/-- A step from a state of type `σ` to a result or a problem, and a state. -/
abbrev Action (σ : Type) := ExceptT Problem (StateM σ)

namespace Action

variable {σ α : Type}

/-- The step that has an outcome and leaves the state as it is. -/
def ofOutcome (outcome : Outcome α) : Action σ α :=
  fun state => (outcome, state)

/-- Run a step from a state. -/
def perform (action : Action σ α) (state : σ) : Outcome α × σ :=
  ExceptT.run action state

end Action

end Rewards
