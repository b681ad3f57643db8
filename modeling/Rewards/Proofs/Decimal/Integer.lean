/-
Integers as doubles.

A parameter may be given as an integer where it is a double, and is then rounded.  For the
integers that can be given, those of a machine word, nothing is lost that a range check looks
at: the double is finite, and it is below zero exactly if the integer is.

Small integers and great ones are turned into doubles on different ways.  The small ones are
scaled up to fifty-three bits, packed, and multiplied by one; the great ones are multiplied by
one in a form with too many bits.  Either way what is rounded has at least fifty-three bits, and
of these rounding leaves fifty-three: it shifts the others out and adds at most one, which makes
one more bit at most, so that one further shift is enough (`exists_roundWithAccuracy`).  A number
of fifty-three bits is unpacked as what it was packed from, unless its power of two is too great,
and for a word it is nowhere near.
-/
import Mathlib
import Rewards.Proofs.Decimal.Order

namespace Rewards.Decimal

open Float.Model UnpackedFloat

/-- A significand of fifty-three bits with a power of two that a double can have. -/
structure IsNormal (m : Nat) (e : Int) : Prop where
  le : 2 ^ 52 ≤ m
  lt : m < 2 ^ 53
  least_le : -1074 ≤ e
  le_greatest : e ≤ 971

/-! ### Rounding -/

theorem mantissa_shiftRight (em : ExtendedMantissa) (k : Nat) :
    (em >>> k).mantissa = em.mantissa / 2 ^ k := by
  show (k.repeat ExtendedMantissa.shiftRightOne em).mantissa = _
  induction k with
  | zero => rw [pow_zero, Nat.div_one]; rfl
  | succ k ih =>
      show (k.repeat ExtendedMantissa.shiftRightOne em).mantissa / 2 = _
      rw [ih, Nat.div_div_eq_div_mul, pow_succ]

/-- Rounding adds at most one. -/
theorem roundedMantissa_bounds (em : ExtendedMantissa) :
    em.mantissa ≤ em.roundedMantissa ∧ em.roundedMantissa ≤ em.mantissa + 1 := by
  obtain ⟨m, round, sticky⟩ := em
  show m ≤ Accuracy.roundToNearestEven m _ ∧ Accuracy.roundToNearestEven m _ ≤ m + 1
  have hparity : m % 2 < 2 := Nat.mod_lt _ (by decide)
  cases round <;> cases sticky <;>
    simp only [ExtendedMantissa.accuracy, Accuracy.roundToNearestEven] <;> omega

/-- Of at least fifty-three bits the first fifty-three are left. -/
theorem div_bounds {m : Nat} (h : 2 ^ 52 ≤ m) :
    2 ^ 52 ≤ m / 2 ^ (m.log2 - 52) ∧ m / 2 ^ (m.log2 - 52) < 2 ^ 53 := by
  have hne : m ≠ 0 := by omega
  have hlog : 52 ≤ m.log2 := (Nat.le_log2 hne).mpr h
  have hlow : 2 ^ 52 * 2 ^ (m.log2 - 52) ≤ m := by
    rw [← pow_add, Nat.add_sub_cancel' hlog]
    exact Nat.log2_self_le hne
  have hhigh : m < 2 ^ 53 * 2 ^ (m.log2 - 52) := by
    rw [← pow_add, show 53 + (m.log2 - 52) = m.log2 + 1 by omega]
    exact Nat.lt_log2_self
  exact ⟨(Nat.le_div_iff_mul_le (by positivity)).mpr hlow,
    (Nat.div_lt_iff_lt_mul (by positivity)).mpr hhigh⟩

theorem targetExponent_eq (m : Nat) (e : Int) :
    Format.binary64.targetExponent (totalExponent m e) = max (m.log2 + e - 52) (-1074) := by
  have hbits : (Format.binary64.mantissaBits : Int) = 53 := rfl
  have hleast : Format.binary64.minExponent = -1074 := rfl
  rw [Format.targetExponent, totalExponent, hbits, hleast]
  congr 1
  omega

theorem shiftToTargetExponent_eq {m : Nat} {e : Int} (h : 2 ^ 52 ≤ m) (he : -1074 ≤ e) :
    shiftToTargetExponent .binary64 m e .exact =
      (ExtendedMantissa.ofMantissaAndAccuracy m .exact >>> (m.log2 - 52),
        e + (m.log2 - 52 : Nat)) := by
  have hlog : 52 ≤ m.log2 := (Nat.le_log2 (by omega)).mpr h
  have hshift : (Format.binary64.targetExponent (totalExponent m e) - e).toNat = m.log2 - 52 := by
    rw [targetExponent_eq]
    omega
  rw [shiftToTargetExponent, shiftToExponent, hshift]

/-- **A number of at least fifty-three bits is rounded to one of fifty-three.** -/
theorem exists_roundWithAccuracy (s : Sign) {m : Nat} {e : Int} (h : 2 ^ 52 ≤ m) (he : -1074 ≤ e) :
    ∃ (m' : Nat) (e' : Int) (hm : 0 < m'),
      roundWithAccuracy .binary64 s m e .exact = .finite s m' e' hm ∧
      2 ^ 52 ≤ m' ∧ m' < 2 ^ 53 ∧ e ≤ e' ∧ e' + 51 ≤ e + m.log2 := by
  obtain ⟨hlow, hhigh⟩ := div_bounds h
  have hlog : 52 ≤ m.log2 := (Nat.le_log2 (by omega)).mpr h
  generalize hem : ExtendedMantissa.ofMantissaAndAccuracy m .exact >>> (m.log2 - 52) = em
  have hmantissa : em.mantissa = m / 2 ^ (m.log2 - 52) := by
    rw [← hem, mantissa_shiftRight]
    rfl
  obtain ⟨hle, hsucc⟩ := roundedMantissa_bounds em
  -- the second shift is by one bit at most
  have hrounded : 2 ^ 52 ≤ em.roundedMantissa := by omega
  have hlogRounded : em.roundedMantissa.log2 < 54 :=
    (Nat.log2_lt (by omega)).mpr (by omega)
  have hfinal := div_bounds hrounded
  refine ⟨_, e + (m.log2 - 52 : Nat) + (em.roundedMantissa.log2 - 52 : Nat),
    lt_of_lt_of_le (by decide) hfinal.1, ?_, hfinal.1, hfinal.2, by omega, by omega⟩
  have hshifted : (ExtendedMantissa.ofMantissaAndAccuracy em.roundedMantissa .exact >>>
      (em.roundedMantissa.log2 - 52)).mantissa =
        em.roundedMantissa / 2 ^ (em.roundedMantissa.log2 - 52) := by
    rw [mantissa_shiftRight]
    rfl
  simp only [roundWithAccuracy, shiftToTargetExponent_eq h he, hem,
    shiftToTargetExponent_eq hrounded (show -1074 ≤ e + ((m.log2 - 52 : Nat) : Int) by omega),
    hshifted]
  exact dif_neg (by omega)

/-! ### Packing -/

theorem unpackSign_packComponents {spec : Format} {s : Sign} {exponent mantissa} :
    unpackSign (packComponents spec s exponent mantissa) = s.toBitVec := by
  refine BitVec.eq_of_getLsbD_eq fun i hi => ?_
  obtain rfl : i = 0 := by omega
  simp [unpackSign, packComponents, BitVec.getLsbD_append, BitVec.getElem_append]

theorem ofBitVec_toBitVec (s : Sign) : Sign.ofBitVec s.toBitVec = s := by
  cases s <;> rfl

/-- A normal number is packed with the exponent it has above the least one and without its first
bit. -/
theorem pack_of_isNormal (s : Sign) {m k : Nat} (hm : 0 < m) (h : IsNormal m (k - 1075)) :
    UnpackedFloat.pack .binary64 (.finite s m (k - 1075) hm) =
      packComponents .binary64 s (BitVec.ofNat 11 k) (BitVec.ofNat 52 m) := by
  have hle := h.le_greatest
  have hbiased : ((k : Int) - 1075 + (Format.binary64.exponentBias : Int) +
      (Format.binary64.mantissaBitsWithoutImplicit : Int)).toNat = k := by
    show ((k : Int) - 1075 + 1023 + 52).toNat = k
    omega
  have hlog : m.log2 + 1 = 53 := by
    have hge := (Nat.le_log2 hm.ne').mpr h.le
    have hlt := (Nat.log2_lt hm.ne').mpr h.lt
    omega
  rw [UnpackedFloat.pack, hbiased, if_neg (by show ¬ 2 ^ 11 ≤ k + 1; omega)]
  exact if_pos hlog

/-- A significand of fifty-three bits is its first bit and the others. -/
theorem toNat_append_ofNat {m : Nat} (hle : 2 ^ 52 ≤ m) (hlt : m < 2 ^ 53) :
    (1#1 ++ BitVec.ofNat 52 m).toNat = m := by
  rw [BitVec.toNat_append, ← Nat.shiftLeft_add_eq_or_of_lt (BitVec.ofNat 52 m).isLt,
    BitVec.toNat_ofNat]
  show 2 ^ 52 + m % 2 ^ 52 = m
  omega

/-- **What is packed from a normal number is unpacked as that number.** -/
theorem unpack_pack_of_isNormal (s : Sign) {m : Nat} {e : Int} (hm : 0 < m) (h : IsNormal m e) :
    (pack (.finite s m e hm)).unpack = .finite s m e hm := by
  have hleast := h.least_le
  have hgreatest := h.le_greatest
  obtain ⟨k, rfl⟩ : ∃ k : Nat, e = (k : Int) - 1075 := ⟨(e + 1075).toNat, by omega⟩
  have hexponent : (BitVec.ofNat 11 k).toNat = k := by
    rw [BitVec.toNat_ofNat]
    omega
  have hnotGreatest : BitVec.ofNat 11 k ≠ -1#11 := fun h => by
    rw [h] at hexponent
    have hall : (-1#11).toNat = 2047 := rfl
    omega
  have hnotLeast : BitVec.ofNat 11 k ≠ 0#11 := fun h => by
    rw [h] at hexponent
    have hnone : (0#11).toNat = 0 := rfl
    omega
  show UnpackedFloat.unpack .binary64 (UnpackedFloat.pack .binary64 _) = _
  rw [pack_of_isNormal s hm h, UnpackedFloat.unpack]
  simp only [unpackMantissa_packComponents, unpackExponent_packComponents,
    unpackSign_packComponents, ofBitVec_toBitVec, if_neg hnotGreatest, if_neg hnotLeast,
    hexponent, toNat_append_ofNat h.le h.lt]
  rfl

/-- A double that is rounded from at least fifty-three bits, if it is not too great. -/
theorem exists_unpack_pack_round (s : Sign) {m : Nat} {e : Int} (h : 2 ^ 52 ≤ m) (he : -1074 ≤ e)
    (hbound : e + m.log2 ≤ 1022) :
    ∃ (m' : Nat) (e' : Int) (hm : 0 < m'),
      (pack (roundWithAccuracy .binary64 s m e .exact)).unpack = .finite s m' e' hm ∧
      IsNormal m' e' ∧ e ≤ e' ∧ e' + 51 ≤ e + m.log2 := by
  obtain ⟨m', e', hm, hround, hlow, hhigh, hle, hge⟩ := exists_roundWithAccuracy s h he
  have hnormal : IsNormal m' e' := ⟨hlow, hhigh, by omega, by omega⟩
  exact ⟨m', e', hm, by rw [hround, unpack_pack_of_isNormal s hm hnormal], hnormal, hle, hge⟩

/-! ### Natural numbers -/

/-- Scaled up to fifty-three bits. -/
theorem shiftLeft_bounds {n : Nat} (hpos : 0 < n) (hlt : n < 2 ^ 53) :
    2 ^ 52 ≤ n <<< (52 - n.log2) ∧ n <<< (52 - n.log2) < 2 ^ 53 := by
  have hlog : n.log2 < 53 := (Nat.log2_lt hpos.ne').mpr hlt
  have hlow : 2 ^ n.log2 ≤ n := Nat.log2_self_le hpos.ne'
  have hhigh : n < 2 ^ (n.log2 + 1) := Nat.lt_log2_self
  rw [Nat.shiftLeft_eq]
  constructor
  · calc 2 ^ 52 = 2 ^ n.log2 * 2 ^ (52 - n.log2) := by rw [← pow_add]; congr 1; omega
      _ ≤ n * 2 ^ (52 - n.log2) := Nat.mul_le_mul_right _ hlow
  · calc n * 2 ^ (52 - n.log2) < 2 ^ (n.log2 + 1) * 2 ^ (52 - n.log2) :=
          Nat.mul_lt_mul_of_pos_right hhigh (by positivity)
      _ = 2 ^ 53 := by rw [← pow_add]; congr 1; omega

theorem toModel_toFloat {n : Nat} (hpos : 0 < n) (hlt : n < 2 ^ 53) :
    n.toUInt64.toFloat.toModel = pack (roundWithAccuracy .binary64 .positive
      (n <<< (52 - n.log2)) (0 - (52 - n.log2 : Nat)) .exact) := by
  have hlog : n.log2 < 53 := (Nat.log2_lt hpos.ne').mpr hlt
  have hword : n.toUInt64.toNat = n := UInt64.toNat_ofNat_of_lt' (lt_trans hlt (by decide))
  have hshift : ((0 : Int) - Format.binary64.targetExponent (totalExponent n 0)).toNat =
      52 - n.log2 := by
    rw [targetExponent_eq]
    omega
  have hgt : compare (n : Int) 0 = .gt := Int.compare_eq_gt.mpr (by omega)
  show pack (UnpackedFloat.normalize .binary64 (n.toUInt64.toNat : Int) 0 .positive) = _
  rw [hword, UnpackedFloat.normalize, hgt]
  simp only [Int.toNat_natCast, UnpackedFloat.round, decreaseExponent, hshift]

/-- Multiplied by one, a double is rounded from fifty-two bits more. -/
theorem toModel_mul_one {x : Float} {m : Nat} {e : Int} {hm : 0 < m}
    (h : x.toModel.unpack = .finite .positive m e hm) :
    (x * Float.exactlyRepresentablePowersOfTen[0]).toModel =
      pack (roundWithAccuracy .binary64 .positive (m * 2 ^ 52) (e + -52) .exact) := by
  have hone : Float.exactlyRepresentablePowersOfTen[0].toModel.unpack =
      .finite .positive (2 ^ 52) (-52) (by decide) := rfl
  show pack (UnpackedFloat.mul .binary64 x.toModel.unpack
    Float.exactlyRepresentablePowersOfTen[0].toModel.unpack) = _
  rw [h, hone]
  rfl

theorem ofScientific_zero {n : Nat} (hpos : 0 < n) : UnpackedFloat.ofScientific .binary64 n 0 =
    roundWithAccuracy .binary64 .positive (n <<< 53 * 1) (-53) .exact := by
  have hlow : ¬ (0 : Int) < -(2 ^ Format.binary64.exponentBits + n.log2) := by
    have hpow : (0 : Int) < 2 ^ Format.binary64.exponentBits := by decide
    omega
  rw [UnpackedFloat.ofScientific, dif_neg hpos.ne', if_neg (by decide), if_neg hlow,
    if_pos (le_refl _)]
  rfl

/-- **A natural number that is a word is a positive normal double, unless it is zero.** -/
theorem exists_unpack_ofNat {n : Nat} (hpos : 0 < n) (hlt : n < 2 ^ 64) :
    ∃ (m : Nat) (e : Int) (hm : 0 < m),
      (Float.ofNat n).toModel.unpack = .finite .positive m e hm ∧ IsNormal m e := by
  have hofNat : Float.ofNat n = Float.ofScientific n false 0 := rfl
  rw [hofNat, Float.ofScientific]
  by_cases hsmall : n < 2 ^ 53
  · obtain ⟨hlow, hhigh⟩ := shiftLeft_bounds hpos hsmall
    have hlog : n.log2 < 53 := (Nat.log2_lt hpos.ne').mpr hsmall
    have hlogScaled : (n <<< (52 - n.log2)).log2 < 53 := (Nat.log2_lt (by omega)).mpr hhigh
    obtain ⟨m, e, hm, hunpack, hnormal, hle, hge⟩ :=
      exists_unpack_pack_round .positive (e := 0 - (52 - n.log2 : Nat)) hlow (by omega) (by omega)
    rw [← toModel_toFloat hpos hsmall] at hunpack
    have hlowProduct := hnormal.le
    have hhighProduct := hnormal.lt
    have hlogProduct : (m * 2 ^ 52).log2 < 105 := (Nat.log2_lt (by omega)).mpr (by omega)
    obtain ⟨m', e', hm', hunpack', hnormal', -, -⟩ :=
      exists_unpack_pack_round .positive (m := m * 2 ^ 52) (e := e + -52) (by omega) (by omega)
        (by omega)
    rw [← toModel_mul_one hunpack] at hunpack'
    rw [dif_pos ⟨hsmall, by decide⟩]
    simp only [Bool.false_eq_true, if_false]
    exact ⟨m', e', hm', hunpack', hnormal'⟩
  · have hscaled : n <<< 53 = n * 2 ^ 53 := Nat.shiftLeft_eq n 53
    have hlog : (n <<< 53 * 1).log2 < 117 := (Nat.log2_lt (by omega)).mpr (by omega)
    obtain ⟨m, e, hm, hunpack, hnormal, -, -⟩ :=
      exists_unpack_pack_round .positive (m := n <<< 53 * 1) (e := -53) (by omega) (by omega)
        (by omega)
    rw [← ofScientific_zero hpos] at hunpack
    rw [dif_neg fun h => hsmall h.1]
    exact ⟨m, e, hm, hunpack, hnormal⟩

/-! ### Integers -/

theorem exists_unpack_ofInt {i : Int} (h : Word.holds i = true) (hne : i ≠ 0) :
    ∃ (m : Nat) (e : Int) (hm : 0 < m), (Float.ofInt i).toModel.unpack =
      .finite (if 0 < i then .positive else .negative) m e hm := by
  have hrange : -(2 ^ 63 : Int) ≤ i ∧ i < 2 ^ 64 := by
    rw [Word.holds, Bool.and_eq_true, decide_eq_true_eq, decide_eq_true_eq] at h
    exact h
  cases i with
  | ofNat n =>
      rw [Int.ofNat_eq_natCast] at hrange
      have hpos : 0 < n := by
        refine Nat.pos_of_ne_zero fun hn => hne ?_
        rw [hn]
        rfl
      obtain ⟨m, e, hm, hunpack, -⟩ := exists_unpack_ofNat hpos (by omega)
      rw [if_pos (by exact Int.natCast_pos.mpr hpos)]
      exact ⟨m, e, hm, hunpack⟩
  | negSucc n =>
      obtain ⟨m, e, hm, hunpack, hnormal⟩ :=
        exists_unpack_ofNat (n := n + 1) (by omega) (by omega)
      refine ⟨m, e, hm, ?_⟩
      rw [if_neg (by omega)]
      show (pack (Float.ofNat (n + 1)).toModel.unpack.neg).unpack = _
      rw [hunpack]
      exact unpack_pack_of_isNormal .negative hm hnormal

/-- **An integer that is a word is a finite double.** -/
theorem isFinite_ofInt {i : Int} (h : Word.holds i = true) : (Float.ofInt i).isFinite = true := by
  by_cases hzero : i = 0
  · subst hzero
    decide +kernel
  · obtain ⟨m, e, hm, hunpack⟩ := exists_unpack_ofInt h hzero
    show (Float.ofInt i).toModel.unpack.isFinite = true
    rw [hunpack]
    rfl

/-- **An integer that is a word is below zero as a double exactly if it is.** -/
theorem zero_le_ofInt_iff {i : Int} (h : Word.holds i = true) :
    0.0 ≤ Float.ofInt i ↔ 0 ≤ i := by
  by_cases hzero : i = 0
  · subst hzero
    exact iff_of_true (by decide +kernel) (le_refl _)
  · obtain ⟨m, e, hm, hunpack⟩ := exists_unpack_ofInt h hzero
    have hle : 0.0 ≤ Float.ofInt i ↔
        ((UnpackedFloat.zero .positive).compare (Float.ofInt i).toModel.unpack).any (·.isLE) =
          true :=
      ⟨fun h => of_decide_eq_true h, fun h => decide_eq_true h⟩
    rw [hle, hunpack]
    by_cases hpos : 0 < i
    · rw [if_pos hpos]
      exact iff_of_true rfl hpos.le
    · rw [if_neg hpos]
      exact iff_of_false (fun h => by cases h) (by omega)

end Rewards.Decimal
