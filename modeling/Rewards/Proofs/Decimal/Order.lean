/-
The total order of doubles against how they compare as numbers.

The bits of a double below its sign are its magnitude, and a magnitude with its sign is
its level: doubles that are numbers compare as their levels do, since a greater exponent
outweighs every fraction.  The total order goes by the same bits.  It tells the zeros
apart, which compare as equal, and it alone has a place for what is no number.
-/
import Mathlib
import Rewards.Proofs.Decimal.Value
import Rewards.Word

namespace Rewards.Decimal

open Float.Model

/-! ### Bits as signed magnitudes -/

/-- The bits of a double below its sign. -/
def magnitude (x : Float) : Nat :=
  x.toBits.toNat % 2 ^ 63

/-- The place of a double as a number; both zeros are at the same one. -/
def level (x : Float) : Int :=
  if x.toBits.toNat / 2 ^ 63 % 2 = 1 then -(magnitude x : Int) else magnitude x

theorem rank_eq (x : Float) :
    rank x = if x.toBits.toNat / 2 ^ 63 % 2 = 1 then -1 - (magnitude x : Int) else magnitude x :=
  rfl

/-- **Doubles at the same place are the same.** -/
theorem rank_injective {x y : Float} (h : rank x = rank y) : x = y := by
  have hx := x.toBits.toNat_lt
  have hy := y.toBits.toNat_lt
  refine toBits_injective (UInt64.toNat_inj.mp ?_)
  rw [rank_eq, rank_eq] at h
  unfold magnitude at h
  split_ifs at h with hxs hys hys <;> omega

/-! ### Comparing unpacked doubles -/

/-- What the bits of a double are unpacked to, by their level. -/
inductive Unpacks : Int → UnpackedFloat → Prop
  | infinity : Unpacks (2047 * 2 ^ 52) (.infinity .positive)
  | minusInfinity : Unpacks (-(2047 * 2 ^ 52)) (.infinity .negative)
  | zero {s : UnpackedFloat.Sign} : Unpacks 0 (.zero s)
  | positive {m k : Nat} {hm : 0 < m} (hlt : m < 2 ^ 53) (hnormal : 2 ^ 52 ≤ m ∨ k = 0)
      (hk : k < 2046) : Unpacks (k * 2 ^ 52 + m) (.finite .positive m (k - 1074) hm)
  | negative {m k : Nat} {hm : 0 < m} (hlt : m < 2 ^ 53) (hnormal : 2 ^ 52 ≤ m ∨ k = 0)
      (hk : k < 2046) : Unpacks (-(k * 2 ^ 52 + m)) (.finite .negative m (k - 1074) hm)

/-- A number with a sign. -/
def withSign : UnpackedFloat.Sign → Nat → Int
  | .positive, n => n
  | .negative, n => -n

theorem Unpacks.ofInfinity (s : UnpackedFloat.Sign) :
    Unpacks (withSign s (2047 * 2 ^ 52)) (.infinity s) := by
  cases s
  · exact .minusInfinity
  · exact .infinity

theorem Unpacks.ofZero (s : UnpackedFloat.Sign) : Unpacks (withSign s 0) (.zero s) := by
  cases s
  · exact .zero
  · exact .zero

theorem Unpacks.ofFinite (s : UnpackedFloat.Sign) {m k : Nat} (hm : 0 < m) (hlt : m < 2 ^ 53)
    (hnormal : 2 ^ 52 ≤ m ∨ k = 0) (hk : k < 2046) {e : Int} (he : e = k - 1074) :
    Unpacks (withSign s (k * 2 ^ 52 + m)) (.finite s m e hm) := by
  subst he
  cases s
  · have hcast : withSign .negative (k * 2 ^ 52 + m) = -((k : Int) * 2 ^ 52 + m) := by
      show -((k * 2 ^ 52 + m : Nat) : Int) = _
      omega
    rw [hcast]
    exact .negative hlt hnormal hk
  · have hcast : withSign .positive (k * 2 ^ 52 + m) = (k : Int) * 2 ^ 52 + m := by
      show ((k * 2 ^ 52 + m : Nat) : Int) = _
      omega
    rw [hcast]
    exact .positive hlt hnormal hk

/-- A greater power of two makes the greater number, whatever the significands are. -/
theorem compare_scaled {m n k l : Nat} (hm : m < 2 ^ 53) (hn : n < 2 ^ 53)
    (hmnormal : 2 ^ 52 ≤ m ∨ k = 0) (hnnormal : 2 ^ 52 ≤ n ∨ l = 0) :
    (compare ((k : Int) - 1074) (l - 1074)).then (compare m n) =
      compare ((k : Int) * 2 ^ 52 + m) ((l : Int) * 2 ^ 52 + n) := by
  rcases lt_trichotomy k l with hlt | rfl | hgt
  · have hexponent : compare ((k : Int) - 1074) (l - 1074) = .lt := compare_lt_iff_lt.mpr (by omega)
    rw [hexponent, Ordering.lt_then]
    exact (compare_lt_iff_lt.mpr (by omega)).symm
  · rw [compare_eq_iff_eq.mpr rfl, Ordering.eq_then]
    rcases lt_trichotomy m n with hlt | rfl | hgt
    · rw [compare_lt_iff_lt.mpr hlt, compare_lt_iff_lt.mpr (by omega)]
    · rw [compare_eq_iff_eq.mpr rfl, compare_eq_iff_eq.mpr rfl]
    · rw [compare_gt_iff_gt.mpr hgt, compare_gt_iff_gt.mpr (by omega)]
  · have hexponent : compare ((k : Int) - 1074) (l - 1074) = .gt := compare_gt_iff_gt.mpr (by omega)
    rw [hexponent, Ordering.gt_then]
    exact (compare_gt_iff_gt.mpr (by omega)).symm

theorem compare_neg_neg (i j : Int) : compare (-i) (-j) = (compare i j).swap := by
  rcases lt_trichotomy i j with hlt | rfl | hgt
  · rw [compare_lt_iff_lt.mpr hlt, compare_gt_iff_gt.mpr (by omega)]
    rfl
  · rw [compare_eq_iff_eq.mpr rfl, compare_eq_iff_eq.mpr rfl]
    rfl
  · rw [compare_gt_iff_gt.mpr hgt, compare_lt_iff_lt.mpr (by omega)]
    rfl

theorem Unpacks.compare_eq {i j : Int} {a b : UnpackedFloat} (ha : Unpacks i a) (hb : Unpacks j b) :
    a.compare b = some (compare i j) := by
  cases ha with
  | infinity =>
    cases hb
    · rfl
    all_goals exact congrArg some (compare_gt_iff_gt.mpr (by omega)).symm
  | minusInfinity =>
    cases hb
    · exact congrArg some (compare_lt_iff_lt.mpr (by omega)).symm
    · rfl
    all_goals exact congrArg some (compare_lt_iff_lt.mpr (by omega)).symm
  | zero =>
    cases hb with
    | zero => exact congrArg some (compare_eq_iff_eq.mpr rfl).symm
    | infinity | positive => exact congrArg some (compare_lt_iff_lt.mpr (by omega)).symm
    | minusInfinity | negative => exact congrArg some (compare_gt_iff_gt.mpr (by omega)).symm
  | positive hmlt hmnormal =>
    cases hb with
    | positive hnlt hnnormal => exact congrArg some (compare_scaled hmlt hnlt hmnormal hnnormal)
    | infinity => exact congrArg some (compare_lt_iff_lt.mpr (by omega)).symm
    | _ => exact congrArg some (compare_gt_iff_gt.mpr (by omega)).symm
  | negative hmlt hmnormal =>
    cases hb with
    | negative hnlt hnnormal =>
      rw [compare_neg_neg, ← compare_scaled hmlt hnlt hmnormal hnnormal]
      rfl
    | minusInfinity => exact congrArg some (compare_gt_iff_gt.mpr (by omega)).symm
    | _ => exact congrArg some (compare_lt_iff_lt.mpr (by omega)).symm

/-! ### Unpacking -/

theorem toNat_unpackMantissa (x : Float) :
    (@UnpackedFloat.unpackMantissa Format.binary64 x.toBits.toBitVec).toNat =
      x.toBits.toNat % 2 ^ 52 := by
  rw [UnpackedFloat.unpackMantissa, BitVec.toNat_cast, BitVec.extractLsb_toNat]
  rfl

theorem toNat_unpackSign (x : Float) :
    (@UnpackedFloat.unpackSign Format.binary64 x.toBits.toBitVec).toNat =
      x.toBits.toNat / 2 ^ 63 % 2 := by
  rw [UnpackedFloat.unpackSign, BitVec.toNat_cast, BitVec.extractLsb_toNat,
    Nat.shiftRight_eq_div_pow]
  rfl

theorem level_eq (x : Float) :
    level x = withSign (.ofBitVec (@UnpackedFloat.unpackSign Format.binary64 x.toBits.toBitVec))
      (magnitude x) := by
  have hsign := toNat_unpackSign x
  have hlt : x.toBits.toNat / 2 ^ 63 % 2 < 2 := Nat.mod_lt _ (by decide)
  unfold level UnpackedFloat.Sign.ofBitVec
  rw [← hsign]
  split_ifs with hone hzero hzero
  · rw [hzero] at hone
    cases hone
  · rfl
  · rfl
  · exact absurd (BitVec.eq_of_toNat_eq (by rw [BitVec.toNat_ofNat]; omega)) hzero

theorem magnitude_eq (x : Float) :
    magnitude x = (@UnpackedFloat.unpackExponent Format.binary64 x.toBits.toBitVec).toNat * 2 ^ 52 +
      (@UnpackedFloat.unpackMantissa Format.binary64 x.toBits.toBitVec).toNat := by
  rw [toNat_unpackExponent, toNat_unpackMantissa]
  unfold magnitude
  omega

/-- **A double that is a number is unpacked by its level.** -/
theorem unpacks {x : Float} (h : x.isNaN = false) : Unpacks (level x) x.toModel.unpack := by
  have hexponent := toNat_unpackExponent x
  have hfraction := toNat_unpackMantissa x
  have hmagnitude := magnitude_eq x
  have hlt : x.toBits.toNat % 2 ^ 52 < 2 ^ 52 := Nat.mod_lt _ (by decide)
  have hNaN : (UnpackedFloat.unpack Format.binary64 x.toBits.toBitVec).isNaN = false := h
  show Unpacks _ (UnpackedFloat.unpack Format.binary64 x.toBits.toBitVec)
  rw [level_eq]
  unfold UnpackedFloat.unpack at hNaN ⊢
  simp only at hNaN ⊢
  split_ifs at hNaN ⊢ with hall hnone hzero hnone
  · rw [hall, hnone] at hmagnitude
    rw [hmagnitude]
    exact .ofInfinity _
  · cases hNaN
  · rw [hzero, hnone] at hmagnitude
    rw [hmagnitude]
    exact .ofZero _
  · have hpos : 0 < (@UnpackedFloat.unpackMantissa Format.binary64 x.toBits.toBitVec).toNat :=
      Nat.pos_of_ne_zero fun h => hnone (BitVec.eq_of_toNat_eq h)
    rw [hzero] at hmagnitude ⊢
    rw [hmagnitude]
    exact .ofFinite _ hpos (by omega) (.inr rfl) (by omega) rfl
  · have hpos : 0 < x.toBits.toNat / 2 ^ 52 % 2 ^ 11 :=
      Nat.pos_of_ne_zero fun h => hzero (BitVec.eq_of_toNat_eq (hexponent.trans h))
    have hne : x.toBits.toNat / 2 ^ 52 % 2 ^ 11 ≠ 2047 :=
      fun h => hall (BitVec.eq_of_toNat_eq (hexponent.trans h))
    have happend : (1#1 ++ @UnpackedFloat.unpackMantissa Format.binary64 x.toBits.toBitVec).toNat
        = 2 ^ 52 + x.toBits.toNat % 2 ^ 52 := by
      rw [BitVec.toNat_append, hfraction, ← Nat.shiftLeft_add_eq_or_of_lt hlt]
      rfl
    have hscaled : magnitude x = (x.toBits.toNat / 2 ^ 52 % 2 ^ 11 - 1) * 2 ^ 52 +
        (1#1 ++ @UnpackedFloat.unpackMantissa Format.binary64 x.toBits.toBitVec).toNat := by
      rw [happend, hmagnitude, hexponent, hfraction]
      omega
    rw [hscaled]
    refine .ofFinite _ (by omega) (by omega) (.inl (by omega)) (by omega) ?_
    rw [hexponent]
    show _ - ((1023 : Int) + 52) = _
    omega

/-! ### Comparing doubles -/

/-- Only numbers compare. -/
theorem isNaN_of_compare {a b : UnpackedFloat} {o : Ordering} (h : a.compare b = some o) :
    a.isNaN = false ∧ b.isNaN = false := by
  cases a <;> cases b <;> first | exact ⟨rfl, rfl⟩ | cases h

theorem compare_unpack {x y : Float} {o : Ordering}
    (h : x.toModel.unpack.compare y.toModel.unpack = some o) : compare (level x) (level y) = o := by
  obtain ⟨hx, hy⟩ := isNaN_of_compare h
  rw [(unpacks hx).compare_eq (unpacks hy)] at h
  exact Option.some.inj h

theorem beq_of_level_eq {x y : Float} (hx : x.isNaN = false) (hy : y.isNaN = false)
    (h : level x = level y) : (x == y) = true := by
  show (x.toModel.unpack.compare y.toModel.unpack == some .eq) = true
  rw [(unpacks hx).compare_eq (unpacks hy), compare_eq_iff_eq.mpr h]
  rfl

theorem level_eq_of_beq {x y : Float} (h : (x == y) = true) : level x = level y := by
  have hcompare : (x.toModel.unpack.compare y.toModel.unpack == some .eq) = true := h
  exact compare_eq_iff_eq.mp (compare_unpack (beq_iff_eq.mp hcompare))

/-- **Equal numbers are the same double, or they are the two zeros.** -/
theorem eq_or_zeros_of_beq {x y : Float} (h : (x == y) = true) :
    x = y ∨ (x = 0.0 ∧ y = -0.0) ∨ (x = -0.0 ∧ y = 0.0) := by
  have hlevel := level_eq_of_beq h
  have hx := x.toBits.toNat_lt
  have hy := y.toBits.toNat_lt
  have hsame {a b : Float} (hbits : a.toBits.toNat = b.toBits.toNat) : a = b :=
    toBits_injective (UInt64.toNat_inj.mp hbits)
  have hzero : (0.0 : Float).toBits.toNat = 0 := by decide +kernel
  have hminus : (-0.0 : Float).toBits.toNat = 2 ^ 63 := by decide +kernel
  -- where the signs are different, both magnitudes are zero
  unfold level magnitude at hlevel
  split_ifs at hlevel with hxs hys hys
  · exact .inl (hsame (by omega))
  · exact .inr (.inr ⟨hsame (by omega), hsame (by omega)⟩)
  · exact .inr (.inl ⟨hsame (by omega), hsame (by omega)⟩)
  · exact .inl (hsame (by omega))

end Rewards.Decimal
