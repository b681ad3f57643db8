/-
Payment cycles.

A cycle is named by its end, the block after its last one.  It covers as many blocks
before its end as a cycle is long, cut off at the start of the validity window, and
it is in the window if its end comes after the window's start and not after the
window's end.  A selection of several cycles steps back from the last one by the
length of a cycle, as long as there are blocks to step back over.
-/
import Rewards.Parameters

namespace Rewards

/-- The blocks of the cycle that ends at a block, if it is in the validity window. -/
def CoreParameters.cycleRange? (core : CoreParameters) (paymentCycle : Block) : Option BlockRange :=
  if core.cycleLength = 0 ∨ paymentCycle ≤ core.validFrom ∨ core.validTo < paymentCycle then none
  else
    let start := UInt64.ofNat (paymentCycle.toNat - core.cycleLength.toNat)
    some ⟨max start core.validFrom, paymentCycle - 1⟩

/-- How many of the selected cycles end at block zero or later. -/
def RunSelection.reachable (run : RunSelection) (length : UInt64) : Nat :=
  if length = 0 then run.cycles.toNat
  else min run.cycles.toNat (run.paymentCycle.toNat / length.toNat + 1)

/-- The ends of the selected cycles, ascending. -/
def RunSelection.paymentCycles (run : RunSelection) (length : UInt64) : List Block :=
  (List.range (run.reachable length)).reverse.map fun back =>
    UInt64.ofNat (run.paymentCycle.toNat - back * length.toNat)

end Rewards
