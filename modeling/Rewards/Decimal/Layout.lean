/-
Layouts: how a binary number is written as decimal text.

A layout says which magnitudes are written positionally, how a whole number ends,
whether a positive exponent carries a sign, and how a tie between two shortest
decimals is settled.  The digits themselves are the shortest ones.  A zero keeps its
sign, and the values that are not finite have fixed names.
-/
import Rewards.Decimal.Shortest

namespace Rewards.Decimal

/-- The decisions of a format for decimal text. -/
structure Layout where
  /-- The least power of ten of a first digit that is written positionally, if there is one. -/
  plainFrom : Option Int
  /-- The first power of ten that is too great to be written positionally, if there is one. -/
  plainBelow : Option Int
  /-- What follows the digits of a whole number written positionally. -/
  wholeEnding : String
  /-- What stands before a positive exponent. -/
  positiveExponent : String
  /-- How a tie is settled. -/
  tie : Tie
deriving DecidableEq

namespace Layout

/-- Always positional, and a whole number without a point; the layout of messages to people. -/
def positional : Layout :=
  ⟨none, none, "", "", .away⟩

/-- Whether a number whose first digit stands for `10 ^ lead` is written positionally. -/
def isPlain (layout : Layout) (lead : Int) : Bool :=
  (layout.plainFrom.all (· ≤ lead)) && (layout.plainBelow.all (lead < ·))

/-- The text of a positive decimal. -/
def digits (layout : Layout) (d : Digits) : List Char :=
  let ds := Nat.toDigits 10 d.coefficient
  if layout.isPlain d.lead then
    if 0 ≤ d.lead then
      let whole := d.lead.toNat + 1
      let fraction := ds.drop whole
      ds.take whole ++ List.replicate (whole - ds.length) '0' ++
        (if fraction.isEmpty then layout.wholeEnding.toList else '.' :: fraction)
    else '0' :: '.' :: List.replicate ((-d.lead).toNat - 1) '0' ++ ds
  else
    let fraction := ds.drop 1
    ds.take 1 ++ (if fraction.isEmpty then [] else '.' :: fraction) ++ 'e' ::
      (if 0 ≤ d.lead then layout.positiveExponent.toList else ['-']) ++
      Nat.toDigits 10 d.lead.natAbs

/-- A text with a minus sign before it if it is negative. -/
def signed (negative : Bool) (text : List Char) : List Char :=
  if negative then '-' :: text else text

/-- The text of a value whose shortest decimal has at most `most` digits. -/
def value (layout : Layout) (most : Nat) : Value → List Char
  | .nan => "NaN".toList
  | .infinite negative => signed negative "inf".toList
  | .zero negative => signed negative ('0' :: layout.wholeEnding.toList)
  | .finite negative b => signed negative (layout.digits (b.shortest layout.tie most))

/-- The text of a double. -/
def float (layout : Layout) (x : Float) : List Char :=
  layout.value 17 (.ofFloat x)

/-- The text of a single. -/
def float32 (layout : Layout) (x : Float32) : List Char :=
  layout.value 9 (.ofFloat32 x)

end Layout

end Rewards.Decimal
