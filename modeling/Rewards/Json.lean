/-
Values of the JSON data model.

A number is an integer or a double, and the two never compare equal: `1` and `1.0`
are different numbers.  An object is a list of members; where a key is repeated the
last member counts, and the order of members carries no meaning, which is what
`Json.member?` and the canonical text go by.
-/

namespace Rewards

/-- A JSON number. -/
inductive Number where
  /-- A number written without point and exponent. -/
  | integer (n : Int)
  /-- A double. -/
  | real (x : Float)
deriving DecidableEq

/-- A JSON value. -/
inductive Json where
  | null
  | bool (b : Bool)
  | number (n : Number)
  | text (s : String)
  | array (items : List Json)
  | object (members : List (String × Json))

namespace Json

instance : Inhabited Json := ⟨.null⟩

/-- The integer `n`. -/
def integer (n : Int) : Json :=
  .number (.integer n)

/-- The natural number `n`. -/
def natural (n : Nat) : Json :=
  .integer n

/-- The double `x`. -/
def real (x : Float) : Json :=
  .number (.real x)

/-- The last member with this key. -/
def lastMember? (key : String) : List (String × Json) → Option Json
  | [] => none
  | (k, v) :: rest =>
    match lastMember? key rest with
    | some found => some found
    | none => if k = key then some v else none

/-- The value of a key of an object. -/
def member? (key : String) : Json → Option Json
  | .object members => lastMember? key members
  | _ => none

end Json

end Rewards
