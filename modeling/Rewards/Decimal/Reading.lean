/-
Reading decimal text as a binary number.

A decimal is an optional sign, digits with an optional point among them, and an
optional exponent.  There must be a digit before or after the point, and one in the
exponent if there is an exponent.  The binary number is the one of its format nearest
to the decimal, be it a double or a single: a decimal is rounded once.
-/

namespace Rewards.Decimal

/-- The natural number that digits of a base stand for, `none` if there is another character. -/
def natOfDigits? (base : Nat) (value : Char → Option Nat) (cs : List Char) : Option Nat :=
  if cs.isEmpty then none
  else cs.foldl (fun acc c =>
    match acc, value c with
    | some n, some d => some (n * base + d)
    | _, _ => none) (some 0)

/-- The value of a decimal digit. -/
def digit? (c : Char) : Option Nat :=
  if c.isDigit then some (c.toNat - '0'.toNat) else none

/-- The natural number that decimal digits stand for. -/
def nat? (cs : List Char) : Option Nat :=
  natOfDigits? 10 digit? cs

/-- The sign of a signed text, and the text after it. -/
def splitSign : List Char → Bool × List Char
  | '-' :: rest => (true, rest)
  | '+' :: rest => (false, rest)
  | rest => (false, rest)

/-- An integer with an optional sign. -/
def int? (cs : List Char) : Option Int :=
  let (negative, digits) := splitSign cs
  (nat? digits).map fun n => if negative then -(n : Int) else n

/-- A sign, a coefficient and a power of ten. -/
structure Scientific where
  negative : Bool
  coefficient : Nat
  exponent : Int
deriving DecidableEq

/-- The power of ten of a decimal, no further from zero than formats can tell apart. -/
def Scientific.reach (d : Scientific) : Int :=
  let size := (Nat.toDigits 10 d.coefficient).length
  if d.coefficient = 0 then 0
  else if d.exponent + size < -400 then -400 - size
  else if 400 < d.exponent + size then 400 - size
  else d.exponent

/-- The double nearest to a decimal. -/
def Scientific.toFloat (d : Scientific) : Float :=
  let x := Float.ofScientific d.coefficient (d.reach < 0) d.reach.natAbs
  if d.negative then -x else x

/-- The single nearest to a decimal. -/
def Scientific.toFloat32 (d : Scientific) : Float32 :=
  let x := Float32.ofScientific d.coefficient (d.reach < 0) d.reach.natAbs
  if d.negative then -x else x

/-- A decimal without its sign, as a coefficient and a power of ten. -/
def unsigned? (cs : List Char) : Option (Nat × Int) := do
  let whole := cs.takeWhile Char.isDigit
  let rest := cs.dropWhile Char.isDigit
  let (fraction, rest) := match rest with
    | '.' :: more => (more.takeWhile Char.isDigit, more.dropWhile Char.isDigit)
    | _ => ([], rest)
  let coefficient ← nat? (whole ++ fraction)
  let exponent ← match rest with
    | [] => some 0
    | e :: more => if e = 'e' ∨ e = 'E' then int? more else none
  some (coefficient, exponent - fraction.length)

/-- The decimal that a text is. -/
def scientific? (cs : List Char) : Option Scientific := do
  let (negative, rest) := splitSign cs
  let (coefficient, exponent) ← unsigned? rest
  some ⟨negative, coefficient, exponent⟩

/-- The double that a decimal stands for. -/
def float? (cs : List Char) : Option Float :=
  (scientific? cs).map Scientific.toFloat

/-- The single that a decimal stands for. -/
def float32? (cs : List Char) : Option Float32 :=
  (scientific? cs).map Scientific.toFloat32

end Rewards.Decimal
