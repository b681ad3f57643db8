/-
Blocks and ranges of blocks.

A block is a word of 64 bits.  A range has a first and a last block and covers both.
`BlockRange.make` refuses a range whose first block comes after its last; a range
that is read from data or cut out of a payment cycle is taken as it comes.
-/
import Rewards.Problem
import Rewards.Shape.Fields

namespace Rewards

/-- The number of a block. -/
abbrev Block := UInt64

/-- The decimal text of a natural number. -/
def natText (n : Nat) : String :=
  String.ofList (Nat.toDigits 10 n)

/-- The decimal text of a word. -/
def wordText (n : UInt64) : String :=
  natText n.toNat

/-- The blocks from `first` to `last`, both included. -/
structure BlockRange where
  first : Block
  last : Block
deriving DecidableEq

namespace BlockRange

/-- The range of two blocks in order. -/
def make (first last : Block) : Outcome BlockRange :=
  if last < first then
    .error (.configuration
      ("invalid block range: min_block " ++ wordText first ++ " > max_block " ++ wordText last))
  else .ok ⟨first, last⟩

/-- Whether a block is one of the range. -/
def contains (r : BlockRange) (b : Block) : Bool :=
  r.first ≤ b && b ≤ r.last

/-- The number of blocks, if it is a word: it is not for all blocks, nor where no block is covered. -/
def length? (r : BlockRange) : Option UInt64 :=
  if r.last < r.first then none
  else if r.last.toNat - r.first.toNat + 1 < Word.count 64 then some (r.last - r.first + 1) else none

/-- Whether no block is covered; a range covers at least one. -/
def isEmpty (_ : BlockRange) : Bool :=
  false

/-- The range between brackets. -/
def text (r : BlockRange) : String :=
  "[" ++ wordText r.first ++ ", " ++ wordText r.last ++ "]"

/-- The range as a JSON object. -/
def toJson (r : BlockRange) : Json :=
  .object [("min_block", .natural r.first.toNat), ("max_block", .natural r.last.toNat)]

open Shape

/-- A range read from its two fields, in whatever order they are. -/
def read {m : Type → Type} [Monad m] {ν : Type} [Source m ν] : ν → m BlockRange :=
  record "BlockRange" .lenient
    (mk <$> Fields.required "min_block" word <*> Fields.required "max_block" word)

end BlockRange

end Rewards
