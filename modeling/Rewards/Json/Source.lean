/-
JSON values as a source of typed values.

Members are visited in ascending order of their keys, each key once.  An integer
serves where a double is expected, a double never where an integer is.  A record may
be given as an array of its fields.
-/
import Rewards.Shape.Fields

namespace Rewards.Json

open Shape

/-- What a value is called when something else was expected. -/
def found : Json → Found
  | .null => .unit
  | .bool b => .bool b
  | .number (.integer n) => .integer n
  | .number (.real x) => .real x
  | .text s => .text s
  | .array _ => .sequence
  | .object _ => .map

/-- A value where another type was expected. -/
def wrongType {α : Type} (v : Json) (expected : String) : Except Mismatch α :=
  .error (.wrongType v.found expected)

/-- The entries of an object by ascending key, of a repeated key the last. -/
def entries (members : List (String × Json)) : List (String × Json) :=
  (Dictionary.ofList members).entries

instance : Source (Except Mismatch) Json where
  reject _ mismatch := .error mismatch
  whole bound type v :=
    match v with
    | .number (.integer (.ofNat n)) =>
      if n < bound then .ok n else .error (.wrongValue (.integer n) type)
    | .number (.integer n) => .error (.wrongValue (.integer n) type)
    | v => v.wrongType type
  real v :=
    match v with
    | .number (.integer n) => .ok (.ofInt n)
    | .number (.real x) => .ok x
    | v => v.wrongType "f64"
  text v :=
    match v with
    | .text s => .ok s
    | v => v.wrongType "a string"
  value v := .ok v
  present? v :=
    match v with
    | .null => .ok none
    | v => .ok (some v)
  skip _ := .ok ()
  positional? v :=
    match v with
    | .array items => some items
    | _ => none
  foldItems step start v :=
    match v with
    | .array items => items.foldlM step start
    | v => v.wrongType "a sequence"
  foldEntries expected _ step start v :=
    match v with
    | .object members => (entries members).foldlM (fun s e => step s e.1 e.2) start
    | v => v.wrongType expected

/-- The words of mismatches in JSON. -/
def wording : Wording :=
  ⟨"null", Number.layout.float⟩

/-- The sentence for a mismatch in a JSON value. -/
def sentence (mismatch : Mismatch) : String :=
  (mismatch.sentence? wording).getD "number out of range"

end Rewards.Json
