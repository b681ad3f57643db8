/-
Shortest decimals: the fewest digits that read back as the same binary number.

A positive binary number is a significand times a power of two.  The reals that
round to it form an interval, closed when the significand is even and open when it
is odd.  For one digit, two digits and so on, only two points of that decimal grid
can lie in the interval if any does: the one just below the number and the one just
above.  The first grid with such a point gives the digits; of two such points the
nearer is taken, and an exact tie is left to the caller's rule.

All of it is exact arithmetic on natural numbers.
-/
import Rewards.Word

namespace Rewards.Decimal

/-- Which of two equally near decimals is taken. -/
inductive Tie where
  /-- The one whose last digit is even. -/
  | even
  /-- The one further from zero. -/
  | away
deriving DecidableEq

/-- A positive binary number and its place among its neighbours. -/
structure Binary where
  /-- The significand. -/
  significand : Nat
  /-- The power of two that the significand is multiplied by. -/
  exponent : Int
  /-- Whether the next smaller number is half as far away as the next greater one. -/
  narrowBelow : Bool
deriving DecidableEq

/-- What the bits of a binary floating-point number stand for. -/
inductive Value where
  | nan
  | infinite (negative : Bool)
  | zero (negative : Bool)
  | finite (negative : Bool) (magnitude : Binary)
deriving DecidableEq

/-- The value of bits with `fractionBits` bits of fraction and `exponentBits` bits of exponent. -/
def Value.ofBits (fractionBits exponentBits : Nat) (bits : Nat) : Value :=
  let fraction := bits % Word.count fractionBits
  let exponent := bits / Word.count fractionBits % Word.count exponentBits
  let negative := bits / Word.count (fractionBits + exponentBits) % 2 == 1
  let bias : Int := (Word.count (exponentBits - 1) - 1 : Nat) + fractionBits
  if exponent = Word.count exponentBits - 1 then
    if fraction = 0 then .infinite negative else .nan
  else if exponent = 0 then
    if fraction = 0 then .zero negative
    else .finite negative ⟨fraction, 1 - bias, false⟩
  else
    .finite negative
      ⟨Word.count fractionBits + fraction, exponent - bias, fraction = 0 && 1 < exponent⟩

/-- The value of a double. -/
def Value.ofFloat (x : Float) : Value :=
  .ofBits 52 11 x.toBits.toNat

/-- The value of a single. -/
def Value.ofFloat32 (x : Float32) : Value :=
  .ofBits 23 8 x.toBits.toNat

/-- A positive decimal: the digits of `coefficient`, the first of them standing for `10 ^ lead`. -/
structure Digits where
  coefficient : Nat
  lead : Int
deriving DecidableEq

/-- The number of decimal digits of a natural number. -/
def digitCount (n : Nat) : Nat :=
  (Nat.toDigits 10 n).length

/-- The coefficient without the zeros among its last `most` digits. -/
def stripZeros (coefficient : Nat) : Nat → Nat
  | 0 => coefficient
  | most + 1 => if coefficient % 10 = 0 then stripZeros (coefficient / 10) most else coefficient

namespace Binary

/-- The number and the ends of its interval as numerators, and their common denominator. -/
def fractions (b : Binary) : (Nat × Nat × Nat) × Nat :=
  let quarters := 4 * b.significand
  let scale := Nat.pow 2 (b.exponent - 2).toNat
  let denominator := Nat.pow 2 (2 - b.exponent).toNat
  ((( quarters - if b.narrowBelow then 1 else 2) * scale, quarters * scale, (quarters + 2) * scale),
    denominator)

/-- The power of ten of the first decimal digit of `numerator / denominator`. -/
def leadOf (numerator denominator : Nat) : Int :=
  if denominator ≤ numerator then (digitCount (numerator / denominator) : Int) - 1
  else -(digitCount (denominator / numerator) : Int)

/-- The point of the grid of multiples of `10 ^ grid` in the interval, the nearer of two. -/
def onGrid? (tie : Tie) (b : Binary) (grid : Int) : Option Nat :=
  let ((low, value, high), denominator) := b.fractions
  let step := Nat.pow 10 grid.toNat * denominator
  let scale := Nat.pow 10 (-grid).toNat
  let inside (c : Nat) : Bool :=
    if b.significand % 2 = 0 then low * scale ≤ c * step && c * step ≤ high * scale
    else low * scale < c * step && c * step < high * scale
  let below := value * scale / step
  let above := below + 1
  let upward : Bool :=
    let down := value * scale - below * step
    let up := above * step - value * scale
    if down = up then
      match tie with
      | .even => below % 2 = 1
      | .away => true
    else up < down
  match 0 < below && inside below, inside above with
  | true, true => some (if upward then above else below)
  | true, false => some below
  | false, true => some above
  | false, false => none

/-- The shortest decimal, with at most `most` digits. -/
def shortest (tie : Tie) (most : Nat) (b : Binary) : Digits :=
  let ((_, value, _), denominator) := b.fractions
  let lead := leadOf value denominator
  let candidate (count : Nat) : Option Digits :=
    (b.onGrid? tie (lead - count)).map fun c =>
      ⟨stripZeros c (digitCount c), lead - count + digitCount c - 1⟩
  ((List.range most).findSome? candidate).getD ⟨b.significand, 0⟩

end Binary

end Rewards.Decimal
