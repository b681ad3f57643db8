/-
Machine words.

So many bits have two to that power values.  Without a sign they count up from zero; with
one, half of them lie below zero.

The bits of a floating-point number are a word as well, and this word puts all numbers into
a total order: those below zero come first, negative zero before zero, infinity after all
finite numbers, and what is no number at the end.  The place of a number in this order is
an integer that its bits give.
-/

namespace Rewards

namespace Word

/-- How many values bits have. -/
def count (bits : Nat) : Nat :=
  Nat.pow 2 bits

/-- Whether an integer is a word of 64 bits, be it with a sign or without. -/
def holds (n : Int) : Bool :=
  -(count 63 : Int) ≤ n && n < count 64

end Word

namespace Decimal

/-- The place of a number whose sign is the bit above `width` others. -/
def place (width bits : Nat) : Int :=
  let magnitude := bits % Word.count width
  if bits / Word.count width % 2 = 1 then -1 - (magnitude : Int) else magnitude

/-- The place of a double. -/
def rank (x : Float) : Int :=
  place 63 x.toBits.toNat

/-- The place of a single. -/
def rank32 (x : Float32) : Int :=
  place 31 x.toBits.toNat

end Decimal

end Rewards
