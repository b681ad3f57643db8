/-
Blocks as natural numbers, and as texts.

A range covers blocks by their numbers.  The text of a number has nothing but digits, which
tell the number, so a mark that is no digit can be told from it in a longer text.
-/
import Mathlib
import Rewards.Block

namespace Rewards

/-! ### Texts of numbers -/

theorem natText_injective {m n : Nat} (h : natText m = natText n) : m = n := by
  unfold natText at h
  have hread := congrArg (fun cs => Nat.ofDigitChars 10 cs 0) (String.ofList_injective h)
  simpa only [Nat.ofDigitChars_ten_toDigits] using hread

theorem wordText_injective {m n : UInt64} (h : wordText m = wordText n) : m = n :=
  UInt64.toNat_inj.mp (natText_injective h)

theorem isDigit_of_mem_natText {n : Nat} {c : Char} (h : c ∈ (natText n).toList) :
    c.isDigit = true := by
  rw [natText, String.toList_ofList] at h
  exact Nat.isDigit_of_mem_toDigits (by decide) (by decide) h

theorem not_mem_natText {c : Char} (hc : c.isDigit = false) (n : Nat) :
    c ∉ (natText n).toList := by
  intro h
  rw [isDigit_of_mem_natText h] at hc
  cases hc

/-! ### Ranges -/

namespace BlockRange

variable {range : BlockRange} {b : Block}

/-- A range covers the blocks from its first to its last. -/
theorem contains_iff :
    range.contains b = true ↔ range.first.toNat ≤ b.toNat ∧ b.toNat ≤ range.last.toNat := by
  rw [contains, Bool.and_eq_true, decide_eq_true_eq, decide_eq_true_eq]
  rfl

end BlockRange

end Rewards
