/-
What the bits of a double stand for.

The bits of a double are a sign, eleven bits of exponent and fifty-two of fraction.  A
double that is finite is a zero or a significand of at most fifty-three bits times a
power of two, where a significand with fewer bits comes with the least power only
(`IsDouble`).  All three parts can be read off again, so different doubles stand for
different values.
-/
import Mathlib
import Rewards.Decimal.Shortest

namespace Rewards.Decimal

open Float.Model

/-! ### The bits of a double -/

/-- Doubles with the same bits are the same; there is only one that is not a number. -/
theorem toBits_injective {x y : Float} (h : x.toBits = y.toBits) : x = y := by
  obtain ⟨⟨a, ha⟩⟩ := x
  obtain ⟨⟨b, hb⟩⟩ := y
  obtain rfl : a = b := h
  rfl

theorem toNat_unpackExponent (x : Float) :
    (@UnpackedFloat.unpackExponent Format.binary64 x.toBits.toBitVec).toNat =
      x.toBits.toNat / 2 ^ 52 % 2 ^ 11 := by
  rw [UnpackedFloat.unpackExponent, BitVec.toNat_cast, BitVec.extractLsb_toNat,
    Nat.shiftRight_eq_div_pow]
  rfl

/-- The exponent of a finite double is not the greatest one. -/
theorem exponent_ne_of_isFinite {x : Float} (h : x.isFinite = true) :
    x.toBits.toNat / 2 ^ 52 % 2 ^ 11 ≠ 2047 := by
  intro hexponent
  have hall : @UnpackedFloat.unpackExponent Format.binary64 x.toBits.toBitVec = -1#_ := by
    refine BitVec.eq_of_toNat_eq ?_
    rw [toNat_unpackExponent, hexponent]
    rfl
  have hnot : (UnpackedFloat.unpack Format.binary64 x.toBits.toBitVec).isFinite = false := by
    unfold UnpackedFloat.unpack
    simp only [hall, if_true]
    split <;> rfl
  have hunpack : x.isFinite = (UnpackedFloat.unpack Format.binary64 x.toBits.toBitVec).isFinite := rfl
  rw [hunpack, hnot] at h
  cases h

/-! ### The parts of a value -/

/-- A positive double has at most fifty-three bits, and fewer only with the least power of two. -/
structure Binary.IsDouble (b : Binary) : Prop where
  pos : 0 < b.significand
  lt : b.significand < 2 ^ 53
  least_le : -1074 ≤ b.exponent
  normal : 2 ^ 52 ≤ b.significand ∨ b.exponent = -1074
  narrow : b.narrowBelow = true ↔ b.significand = 2 ^ 52 ∧ -1074 < b.exponent

theorem Binary.IsDouble.eq {a b : Binary} (ha : a.IsDouble) (hb : b.IsDouble)
    (hsignificand : a.significand = b.significand) (hexponent : a.exponent = b.exponent) : a = b := by
  have hnarrow : a.narrowBelow = b.narrowBelow := by
    rw [Bool.eq_iff_iff, ha.narrow, hb.narrow, hsignificand, hexponent]
  cases a
  cases b
  simp_all

namespace Value

/-- The sign, the exponent and the fraction of the bits of a double. -/
theorem ofBits_eq (bits : Nat) (h : bits / 2 ^ 52 % 2 ^ 11 ≠ 2047) :
    ofBits 52 11 bits =
      if bits / 2 ^ 52 % 2 ^ 11 = 0 then
        if bits % 2 ^ 52 = 0 then .zero (bits / 2 ^ 63 % 2 == 1)
        else .finite (bits / 2 ^ 63 % 2 == 1) ⟨bits % 2 ^ 52, -1074, false⟩
      else .finite (bits / 2 ^ 63 % 2 == 1)
        ⟨2 ^ 52 + bits % 2 ^ 52, ((bits / 2 ^ 52 % 2 ^ 11 : Nat) : Int) - 1075,
          bits % 2 ^ 52 = 0 && 1 < bits / 2 ^ 52 % 2 ^ 11⟩ :=
  if_neg h

/-- **A finite double is a zero or a significand times a power of two.** -/
theorem ofFloat_of_isFinite {x : Float} (h : x.isFinite = true) :
    (∃ negative, ofFloat x = .zero negative) ∨
      ∃ negative b, ofFloat x = .finite negative b ∧ b.IsDouble := by
  rw [ofFloat, ofBits_eq _ (exponent_ne_of_isFinite h)]
  have hfraction : x.toBits.toNat % 2 ^ 52 < 2 ^ 52 := Nat.mod_lt _ (by decide)
  have hexponent : x.toBits.toNat / 2 ^ 52 % 2 ^ 11 < 2 ^ 11 := Nat.mod_lt _ (by decide)
  split_ifs with hzero hnone
  · exact Or.inl ⟨_, rfl⟩
  · refine Or.inr ⟨_, _, rfl, Nat.pos_of_ne_zero hnone, ?_, le_refl _, Or.inr rfl, ?_⟩
    · exact lt_trans hfraction (by decide)
    · simp
  · refine Or.inr ⟨_, _, rfl, ?_, ?_, ?_, Or.inl (Nat.le_add_right _ _), ?_⟩
    · exact Nat.lt_of_lt_of_le (by decide) (Nat.le_add_right _ _)
    · show 2 ^ 52 + x.toBits.toNat % 2 ^ 52 < 2 ^ 53
      omega
    · show (-1074 : Int) ≤ ((x.toBits.toNat / 2 ^ 52 % 2 ^ 11 : Nat) : Int) - 1075
      omega
    · rw [Bool.and_eq_true, decide_eq_true_eq, decide_eq_true_eq]
      show x.toBits.toNat % 2 ^ 52 = 0 ∧ 1 < x.toBits.toNat / 2 ^ 52 % 2 ^ 11 ↔
        2 ^ 52 + x.toBits.toNat % 2 ^ 52 = 2 ^ 52 ∧
          (-1074 : Int) < ((x.toBits.toNat / 2 ^ 52 % 2 ^ 11 : Nat) : Int) - 1075
      omega

theorem bits_eq {bits : Nat} (h : bits < 2 ^ 64) :
    bits = bits / 2 ^ 63 % 2 * 2 ^ 63 + bits / 2 ^ 52 % 2 ^ 11 * 2 ^ 52 + bits % 2 ^ 52 := by
  omega

/-- **Finite doubles that stand for the same value are the same.** -/
theorem ofFloat_injective {x y : Float} (hx : x.isFinite = true) (hy : y.isFinite = true)
    (h : ofFloat x = ofFloat y) : x = y := by
  have hxbits := bits_eq x.toBits.toNat_lt
  have hybits := bits_eq y.toBits.toNat_lt
  have hxfraction : x.toBits.toNat % 2 ^ 52 < 2 ^ 52 := Nat.mod_lt _ (by decide)
  have hyfraction : y.toBits.toNat % 2 ^ 52 < 2 ^ 52 := Nat.mod_lt _ (by decide)
  have hsign : ∀ {m n : Nat}, (m % 2 == 1) = (n % 2 == 1) → m % 2 = n % 2 := by
    intro m n hmn
    rw [Bool.eq_iff_iff, beq_iff_eq, beq_iff_eq] at hmn
    omega
  refine toBits_injective (UInt64.toNat_inj.mp ?_)
  rw [ofFloat, ofFloat, ofBits_eq _ (exponent_ne_of_isFinite hx),
    ofBits_eq _ (exponent_ne_of_isFinite hy)] at h
  split_ifs at h with hx0 hxf hy0 hyf hy0 hyf hy0 hyf
  · have hs := hsign (Value.zero.inj h)
    omega
  · have hs := hsign (Value.finite.inj h).1
    have hb := Binary.mk.inj (Value.finite.inj h).2
    omega
  · have hb := Binary.mk.inj (Value.finite.inj h).2
    omega
  · have hb := Binary.mk.inj (Value.finite.inj h).2
    omega
  · have hs := hsign (Value.finite.inj h).1
    have hb := Binary.mk.inj (Value.finite.inj h).2
    omega

end Value

end Rewards.Decimal
