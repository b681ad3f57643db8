/-
Zero as the start of a sum.

Sums of amounts start at zero.  Adding to zero gives back every double but one: a double
is packed from what it was unpacked to, and of the parts of a sum zero leaves the other as
it is, unless that is zero too.  Then the sign is lost, so negative zero becomes zero,
which is the same number.
-/
import Mathlib
import Rewards.Proofs.Decimal.Order

namespace Rewards.Decimal

open Float.Model

/-- Doubles that are equal as numbers, or that are no numbers both. -/
def Alike (x y : Float) : Prop :=
  (x == y) = true ∨ (x.isNaN = true ∧ y.isNaN = true)

theorem Alike.refl (x : Float) : Alike x x := by
  cases h : x.isNaN with
  | true => exact .inr ⟨h, h⟩
  | false => exact .inl (beq_of_level_eq h h rfl)

/-- Packing what a double is unpacked to gives the double back. -/
theorem pack_unpack (x : Float) : (⟨pack x.toModel.unpack⟩ : Float) = x :=
  toBits_injective (UInt64.toBitVec_inj.mp (UnpackedFloat.pack_unpack_of_valid x.toModel.valid))

/-- **Adding to zero changes negative zero and nothing else.** -/
theorem zero_add (x : Float) : 0.0 + x = if x = -0.0 then 0.0 else x := by
  by_cases hminus : x = -0.0
  · rw [if_pos hminus, hminus]
    rfl
  · have hadd : UnpackedFloat.add .binary64 (.zero .positive) x.toModel.unpack =
        x.toModel.unpack := by
      cases hx : x.toModel.unpack with
      | notANumber => rfl
      | infinity sign => rfl
      | finite sign mantissa exponent hpos => rfl
      | zero sign =>
          cases sign with
          | positive => rfl
          | negative =>
              refine absurd ?_ hminus
              rw [← pack_unpack x, hx]
              decide +kernel
    rw [if_neg hminus]
    show (⟨pack (UnpackedFloat.add .binary64 (.zero .positive) x.toModel.unpack)⟩ : Float) = x
    rw [hadd, pack_unpack]

/-- As a number, a double that is added to zero is what it was. -/
theorem alike_zero_add (x : Float) : Alike (0.0 + x) x := by
  rw [zero_add]
  by_cases hminus : x = -0.0
  · rw [if_pos hminus, hminus]
    exact .inl (by decide +kernel)
  · rw [if_neg hminus]
    exact .refl x

end Rewards.Decimal
