/-
Failures of a command, and how they are shown.

A failure has a message and the causes behind it, the nearest first.  One cause is
shown below the message with an indentation, several are numbered.  Where a message has
several lines, the later ones are indented like the first.
-/
import Rewards.Problem

namespace Rewards

/-- Why a command failed. -/
structure Failure where
  message : String
  /-- What caused it, and what caused that. -/
  causes : List String
deriving DecidableEq

namespace Failure

/-- The failure that is a problem; a cause that is told is repeated. -/
def ofProblem (problem : Problem) : Failure :=
  ⟨problem.message, problem.source?.toList⟩

/-- A failure in a context. -/
def within (context : String) (failure : Failure) : Failure :=
  ⟨context, failure.message :: failure.causes⟩

/-- The lines of a text. -/
def linesOf : List Char → List (List Char)
  | [] => [[]]
  | c :: rest =>
    if c = '\n' then [] :: linesOf rest
    else
      match linesOf rest with
      | [] => [[c]]
      | line :: lines => (c :: line) :: lines

/-- The lines of a text. -/
def lines (text : String) : List String :=
  (linesOf text.toList).map String.ofList

/-- A text with something before its first line, and as many spaces before the others. -/
def indented (label text : String) : List String :=
  match lines text with
  | [] => []
  | line :: rest =>
    (label ++ line) :: rest.map (String.ofList (List.replicate label.length ' ') ++ ·)

/-- The label of a cause by its number. -/
def label (index : Nat) : String :=
  let number := Nat.toDigits 10 index
  String.ofList (List.replicate (5 - number.length) ' ' ++ number) ++ ": "

/-- The lines for some causes. -/
def causeLines : List String → List String
  | [] => []
  | [cause] => ["", "Caused by:"] ++ indented "    " cause
  | causes =>
    ["", "Caused by:"] ++
      causes.zipIdx.flatMap fun (cause, index) => indented (label index) cause

/-- The lines that show a failure. -/
def report (failure : Failure) : List String :=
  lines ("Error: " ++ failure.message) ++ causeLines failure.causes

end Failure

end Rewards
