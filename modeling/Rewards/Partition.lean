/-
Partitions: the files a table is exported in.

A table is exported at one or more sizes.  A partition of a size covers that many
blocks from a multiple of the size on, and it is complete once the export has reached
its end.  To cover blocks from some first one on, the greatest size comes first: its
partitions start at the first block rounded down and go on as far as they are
complete.  Each smaller size resumes where the last partition ended, so no block is
covered twice, and a size for which there is no room contributes nothing.

All numbers here are exact, so what a step computes can be compared with the bound of
a word.  Rounding up can go beyond it where the sizes do not nest; then there is no
answer.
-/
import Rewards.Block

namespace Rewards

/-- The blocks from `start` up to `stop`, without it, exported at a size. -/
structure Partition where
  size : Nat
  start : Nat
  stop : Nat
deriving DecidableEq

namespace Partition

/-! ### Sizes -/

/-- Put a size into a descending list in which each stands once. -/
def insertSize (size : Nat) : List Nat → List Nat
  | [] => [size]
  | s :: rest =>
    if s < size then size :: s :: rest
    else if s = size then s :: rest
    else s :: insertSize size rest

/-- The sizes that are not zero, descending, each once. -/
def usableSizes (sizes : List UInt64) : List Nat :=
  ((sizes.map (·.toNat)).filter (0 < ·)).foldl (fun acc s => insertSize s acc) []

/-! ### Levels -/

/-- The greatest multiple of `size` up to `n`. -/
def roundDown (n size : Nat) : Nat :=
  n / size * size

/-- The least multiple of `size` from `n` on. -/
def roundUp (n size : Nat) : Nat :=
  (n + size - 1) / size * size

/-- What one size contributes: its partitions from `first` up to `limit`, both multiples of it. -/
structure Level where
  size : Nat
  first : Nat
  limit : Nat
deriving DecidableEq

/-- The partitions of a level, ascending. -/
def Level.partitions (l : Level) : List Partition :=
  (List.range ((l.limit - l.first) / l.size)).map fun i =>
    ⟨l.size, l.first + i * l.size, l.first + i * l.size + l.size⟩

/-- The levels of some sizes; `resumed` says whether a greater size has contributed up to `lower`. -/
def levelsFrom (latest : Nat) : (lower : Nat) → (resumed : Bool) → List Nat → List Level
  | _, _, [] => []
  | lower, resumed, size :: rest =>
    let first := if resumed then roundUp lower size else roundDown lower size
    let limit := roundDown latest size
    ⟨size, first, limit⟩ ::
      (if first < limit then levelsFrom latest limit true rest
       else levelsFrom latest lower resumed rest)

/-- The levels that cover blocks from `first` on, the greatest size first. -/
def levels (first latest : Block) (sizes : List UInt64) : List Level :=
  levelsFrom latest.toNat first.toNat false (usableSizes sizes)

/-! ### Partitions of a table -/

/-- The complete partitions that cover blocks from `first` on. -/
def complete (first latest : Block) (sizes : List UInt64) : List Partition :=
  (levels first latest sizes).flatMap Level.partitions

/-- The complete partitions that cover blocks of a range. -/
def select (range : BlockRange) (latest : Block) (sizes : List UInt64) : List Partition :=
  (complete range.first latest sizes).filter (fun p => p.start ≤ range.last.toNat)

/-! ### Partitions computed in words -/

/-- Whether the ends of a level and those of its partitions are words. -/
def Level.fits (l : Level) : Bool :=
  l.first < Word.count 64 && l.limit < Word.count 64 &&
    l.partitions.all fun p => p.stop < Word.count 64

/-- The complete partitions that cover blocks from `first` on, if all that is computed on the way
to them is a word. -/
def complete? (first latest : Block) (sizes : List UInt64) : Option (List Partition) :=
  if (levels first latest sizes).all Level.fits then some (complete first latest sizes) else none

/-- The complete partitions that cover blocks of a range, if all that is computed on the way to
them is a word. -/
def select? (range : BlockRange) (latest : Block) (sizes : List UInt64) :
    Option (List Partition) :=
  (complete? range.first latest sizes).map fun ps =>
    ps.filter (fun p => p.start ≤ range.last.toNat)

end Partition

end Rewards
