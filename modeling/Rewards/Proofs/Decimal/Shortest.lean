/-
The shortest decimal of a double rounds to the double.

A decimal that is written is a point of a decimal grid, tested to be among the reals that
round to the double.  With seventeen digits the grid is so fine that the point just below
the double or the one just above it passes the test, so that the search for a decimal
always ends with one (`shortest_rounds`).  As no number rounds to two doubles, the text of
a double tells it apart (`float_injective`).
-/
import Mathlib
import Rewards.Proofs.Decimal.Interval
import Rewards.Proofs.Decimal.Layout

namespace Rewards.Decimal

/-! ### Digits -/

theorem lt_pow_digitCount (n : Nat) : n < 10 ^ digitCount n :=
  (Nat.length_toDigits_le_iff (by decide) Nat.length_toDigits_pos).mp (le_refl _)

theorem pow_pred_digitCount_le {n : Nat} (hn : 0 < n) : 10 ^ (digitCount n - 1) ≤ n := by
  by_cases hone : digitCount n - 1 = 0
  · rw [hone]
    exact hn
  · rw [← not_lt, ← Nat.length_toDigits_le_iff (by decide) (Nat.pos_of_ne_zero hone)]
    exact not_le.mpr (Nat.sub_lt (Nat.pos_of_ne_zero (by omega)) (by decide))

theorem digitCount_ten_mul {n : Nat} (hn : 0 < n) : digitCount (10 * n) = digitCount n + 1 := by
  rw [digitCount, ← Nat.add_zero (10 * n),
    ← Nat.toDigits_append_toDigits (by decide) hn (by decide), List.length_append]
  rfl

/-- Zeros at the end are digits that a power of ten makes up for. -/
theorem exists_stripZeros (most : Nat) : ∀ {c : Nat}, 0 < c → ∃ zeros,
    c = stripZeros c most * 10 ^ zeros ∧ digitCount c = digitCount (stripZeros c most) + zeros := by
  induction most with
  | zero => exact fun {c} _ => ⟨0, by simp [stripZeros]⟩
  | succ most ih =>
      intro c hc
      rw [stripZeros]
      split_ifs with hzero
      · obtain ⟨n, rfl⟩ := Nat.dvd_of_mod_eq_zero hzero
        have hn : 0 < n := by omega
        obtain ⟨zeros, hvalue, hcount⟩ := ih hn
        rw [Nat.mul_div_cancel_left n (by decide)]
        refine ⟨zeros + 1, ?_, ?_⟩
        · rw [Nat.pow_succ, ← Nat.mul_assoc, ← hvalue, Nat.mul_comm]
        · rw [digitCount_ten_mul hn, hcount, Nat.add_assoc]
      · exact ⟨0, by simp⟩

/-- A decimal without the zeros at its end stands for the same number. -/
theorem Digits.value_stripZeros {c : Nat} (hc : 0 < c) (most : Nat) (lead : ℤ) :
    Digits.value ⟨stripZeros c most, lead⟩ = c * 10 ^ (lead + 1 - digitCount c) := by
  obtain ⟨zeros, hvalue, hcount⟩ := exists_stripZeros most hc
  have hsum : lead + 1 - digitCount (stripZeros c most) = zeros + (lead + 1 - digitCount c) := by
    omega
  have hcast : (c : ℚ) = stripZeros c most * 10 ^ zeros := by exact_mod_cast hvalue
  rw [Digits.value, hsum, zpow_add₀ (by norm_num), zpow_natCast, ← mul_assoc, ← hcast]

/-! ### Powers and quotients -/

theorem zpow_eq_div {x : ℚ} (hx : x ≠ 0) (n : ℤ) : x ^ n = x ^ n.toNat / x ^ (-n).toNat := by
  conv_lhs => rw [← Int.toNat_sub_toNat_neg n]
  rw [zpow_sub₀ hx, zpow_natCast, zpow_natCast]

section Grid

variable {numerator denominator : Nat} (hdenominator : 0 < denominator) (grid : ℤ) (c : Nat)
include hdenominator

/-- A quotient is at most a point of a grid exactly if the numerators compare so. -/
theorem quotient_le_point_iff :
    numerator * Nat.pow 10 (-grid).toNat ≤ c * (Nat.pow 10 grid.toNat * denominator) ↔
      (numerator / denominator : ℚ) ≤ c * 10 ^ grid := by
  have hd : (0 : ℚ) < denominator := by exact_mod_cast hdenominator
  have hs : (0 : ℚ) < 10 ^ (-grid).toNat := by positivity
  rw [zpow_eq_div (by norm_num) grid, mul_div_assoc', div_le_div_iff₀ hd hs, mul_assoc]
  simp only [Nat.pow_eq]
  exact_mod_cast Iff.rfl

theorem point_le_quotient_iff :
    c * (Nat.pow 10 grid.toNat * denominator) ≤ numerator * Nat.pow 10 (-grid).toNat ↔
      c * 10 ^ grid ≤ (numerator / denominator : ℚ) := by
  have hd : (0 : ℚ) < denominator := by exact_mod_cast hdenominator
  have hs : (0 : ℚ) < 10 ^ (-grid).toNat := by positivity
  rw [zpow_eq_div (by norm_num) grid, mul_div_assoc', div_le_div_iff₀ hs hd, mul_assoc]
  simp only [Nat.pow_eq]
  exact_mod_cast Iff.rfl

end Grid

namespace Binary

variable {b : Binary} {tie : Tie} {grid : ℤ}

/-! ### The interval as fractions -/

theorem denominator_pos (b : Binary) : 0 < b.fractions.2 :=
  Nat.pow_pos (by decide)

theorem quarters_eq (b : Binary) (n : Nat) :
    n * b.quarter = ((n * Nat.pow 2 (b.exponent - 2).toNat : Nat) : ℚ) / b.fractions.2 := by
  have hexponent : 2 - b.exponent = -(b.exponent - 2) := by omega
  rw [quarter, zpow_eq_div (by norm_num), mul_div_assoc', fractions, hexponent]
  push_cast [Nat.pow_eq]
  rfl

theorem value_eq (b : Binary) : b.value = (b.fractions.1.2.1 : ℚ) / b.fractions.2 := by
  refine Eq.trans ?_ (quarters_eq b (4 * b.significand))
  rw [value]
  push_cast
  rfl

theorem high_eq (b : Binary) : b.high = (b.fractions.1.2.2 : ℚ) / b.fractions.2 := by
  refine Eq.trans ?_ (quarters_eq b (4 * b.significand + 2))
  rw [high]
  push_cast
  rfl

theorem low_eq (hb : 0 < b.significand) : b.low = (b.fractions.1.1 : ℚ) / b.fractions.2 := by
  have hle : (if b.narrowBelow then 1 else 2) ≤ 4 * b.significand := by split <;> omega
  refine Eq.trans ?_ (quarters_eq b (4 * b.significand - if b.narrowBelow then 1 else 2))
  rw [low, Nat.cast_sub hle]
  push_cast
  rfl

theorem rounds_iff {x : ℚ} : b.Rounds x ↔
    if b.significand % 2 = 0 then b.low ≤ x ∧ x ≤ b.high else b.low < x ∧ x < b.high := by
  split_ifs with heven
  · exact ⟨fun h => ⟨h.low_le, h.le_high⟩, fun h => ⟨h.1, h.2, fun hodd => by omega⟩⟩
  · exact ⟨fun h => h.strict_of_odd (by omega), fun h => ⟨h.1.le, h.2.le, fun _ => h⟩⟩

/-! ### Points of a grid -/

/-- The numerators that are compared to tell whether a point of a grid rounds to the number. -/
def isInside (b : Binary) (grid : ℤ) (c : Nat) : Bool :=
  let step := Nat.pow 10 grid.toNat * b.fractions.2
  let scale := Nat.pow 10 (-grid).toNat
  if b.significand % 2 = 0 then
    b.fractions.1.1 * scale ≤ c * step && c * step ≤ b.fractions.1.2.2 * scale
  else b.fractions.1.1 * scale < c * step && c * step < b.fractions.1.2.2 * scale

/-- The point of a grid that is next to the number from below. -/
def pointBelow (b : Binary) (grid : ℤ) : Nat :=
  b.fractions.1.2.1 * Nat.pow 10 (-grid).toNat / (Nat.pow 10 grid.toNat * b.fractions.2)

theorem isInside_iff (hb : 0 < b.significand) (c : Nat) :
    b.isInside grid c = true ↔ b.Rounds (c * 10 ^ grid) := by
  have hd := b.denominator_pos
  rw [rounds_iff, isInside, low_eq hb, high_eq]
  split_ifs with heven
  · rw [Bool.and_eq_true, decide_eq_true_eq, decide_eq_true_eq, quotient_le_point_iff hd,
      point_le_quotient_iff hd]
  · rw [Bool.and_eq_true, decide_eq_true_eq, decide_eq_true_eq, ← not_le, ← not_le,
      quotient_le_point_iff hd, point_le_quotient_iff hd, not_le, not_le]

theorem pointBelow_le_value (b : Binary) (grid : ℤ) : b.pointBelow grid * 10 ^ grid ≤ b.value := by
  rw [value_eq, ← point_le_quotient_iff b.denominator_pos]
  exact Nat.div_mul_le_self _ _

theorem value_lt_pointAbove (b : Binary) (grid : ℤ) :
    b.value < (b.pointBelow grid + 1 : Nat) * 10 ^ grid := by
  have hstep : 0 < Nat.pow 10 grid.toNat * b.fractions.2 :=
    Nat.mul_pos (Nat.pow_pos (by decide)) b.denominator_pos
  rw [value_eq, ← not_le, ← point_le_quotient_iff b.denominator_pos, not_le, pointBelow]
  exact Nat.lt_mul_of_div_lt (Nat.lt_succ_self _) hstep

/--
**What the test of a grid finds.**  It is one of the two points around the number, and this
rounds to it; or it is nothing, and neither does.
-/
theorem onGrid?_cases (tie : Tie) (grid : ℤ) (hb : 0 < b.significand) :
    (∃ c, b.onGrid? tie grid = some c ∧ 0 < c ∧ b.Rounds (c * 10 ^ grid)) ∨
      (b.onGrid? tie grid = none ∧
        ¬ (0 < b.pointBelow grid ∧ b.Rounds (b.pointBelow grid * 10 ^ grid)) ∧
        ¬ b.Rounds ((b.pointBelow grid + 1 : Nat) * 10 ^ grid)) := by
  unfold onGrid?
  dsimp only
  split
  · rename_i hbelow habove
    obtain ⟨hpos, hbelow⟩ := Bool.and_eq_true_iff.mp hbelow
    -- whichever of the two is nearer
    have heither : ∀ upward : Bool,
        0 < (if upward then b.pointBelow grid + 1 else b.pointBelow grid) ∧
        b.Rounds ((if upward then b.pointBelow grid + 1 else b.pointBelow grid : Nat) *
          10 ^ grid) := by
      intro upward
      cases upward with
      | true => exact ⟨Nat.succ_pos _, (isInside_iff hb _).mp habove⟩
      | false => exact ⟨of_decide_eq_true hpos, (isInside_iff hb _).mp hbelow⟩
    exact Or.inl ⟨_, rfl, heither _⟩
  · rename_i hbelow _
    obtain ⟨hpos, hbelow⟩ := Bool.and_eq_true_iff.mp hbelow
    exact Or.inl ⟨_, rfl, of_decide_eq_true hpos, (isInside_iff hb _).mp hbelow⟩
  · rename_i _ habove
    exact Or.inl ⟨_, rfl, Nat.succ_pos _, (isInside_iff hb _).mp habove⟩
  · rename_i hbelow habove
    refine Or.inr ⟨rfl, fun hboth => ?_, fun hrounds => ?_⟩
    · have hinside := (isInside_iff hb _).mpr hboth.2
      exact Bool.false_ne_true (hbelow.symm.trans
        (Bool.and_eq_true_iff.mpr ⟨decide_eq_true hboth.1, hinside⟩))
    · exact Bool.false_ne_true (habove.symm.trans ((isInside_iff hb _).mpr hrounds))

/-- A grid with seventeen digits is fine enough for one of the two points around a double. -/
theorem rounds_pointBelow_or_pointAbove (hb : b.IsDouble) (hfine : 10 ^ 16 * 10 ^ grid ≤ b.value) :
    b.Rounds (b.pointBelow grid * 10 ^ grid) ∨
      b.Rounds ((b.pointBelow grid + 1 : Nat) * 10 ^ grid) := by
  have hquarter := b.quarter_pos
  have hle := b.pointBelow_le_value grid
  have hlt := b.value_lt_pointAbove grid
  have habove : ((b.pointBelow grid + 1 : Nat) : ℚ) * 10 ^ grid =
      b.pointBelow grid * 10 ^ grid + 10 ^ grid := by
    push_cast
    ring
  rw [habove] at hlt ⊢
  have hhigh := b.high_eq_value_add
  have hlow := b.low_eq_value_sub
  have hvalue : b.value = 4 * b.significand * b.quarter := rfl
  by_cases hnarrow : b.narrowBelow = true
  · -- the next smaller double is near, but the point above is within two quarters
    have hsignificand : (b.significand : ℚ) = 2 ^ 52 := by exact_mod_cast (hb.narrow.mp hnarrow).1
    rw [if_pos hnarrow] at hlow
    rw [hsignificand] at hvalue
    exact Or.inr (.of_lt (by linarith) (by linarith))
  · -- the points are less than four quarters apart
    have hbound : b.value ≤ 2 ^ 55 * b.quarter := by
      have hsignificand : (b.significand : ℚ) ≤ 2 ^ 53 := by exact_mod_cast hb.lt.le
      rw [hvalue]
      exact mul_le_mul_of_nonneg_right (by linarith) hquarter.le
    rw [if_neg hnarrow] at hlow
    by_cases hnear : b.low < b.pointBelow grid * 10 ^ grid
    · exact Or.inl (.of_lt hnear (by linarith))
    · exact Or.inr (.of_lt (by linarith) (by linarith))

theorem pointBelow_pos (hfine : 10 ^ 16 * 10 ^ grid ≤ b.value) : 0 < b.pointBelow grid := by
  have hstep : (0 : ℚ) < 10 ^ grid := zpow_pos (by norm_num) _
  have hlt : (10 ^ 16 : ℚ) < (b.pointBelow grid + 1 : Nat) :=
    lt_of_mul_lt_mul_right (hfine.trans_lt (b.value_lt_pointAbove grid)) hstep.le
  have hlt' : 10 ^ 16 < b.pointBelow grid + 1 := by exact_mod_cast hlt
  omega

/-! ### The first digit -/

theorem pow_leadOf_le {numerator denominator : Nat} (hnumerator : 0 < numerator)
    (hdenominator : 0 < denominator) :
    (10 : ℚ) ^ leadOf numerator denominator ≤ numerator / denominator := by
  have hn : (0 : ℚ) < numerator := by exact_mod_cast hnumerator
  have hd : (0 : ℚ) < denominator := by exact_mod_cast hdenominator
  unfold leadOf
  split_ifs with hle
  · have hwhole := pow_pred_digitCount_le (Nat.div_pos hle hdenominator)
    have hpos : 0 < digitCount (numerator / denominator) := Nat.length_toDigits_pos
    rw [← Nat.cast_pred hpos, zpow_natCast]
    calc ((10 : ℚ) ^ (digitCount (numerator / denominator) - 1))
        ≤ ((numerator / denominator : Nat) : ℚ) := by exact_mod_cast hwhole
      _ ≤ numerator / denominator := Nat.cast_div_le
  · have hless : denominator ≤ 10 ^ digitCount (denominator / numerator) * numerator :=
      (Nat.lt_mul_of_div_lt (lt_pow_digitCount _) hnumerator).le
    rw [zpow_neg, zpow_natCast, inv_le_comm₀ (by positivity) (by positivity), inv_div,
      div_le_iff₀ hn]
    exact_mod_cast hless

/-- The first digit of a double. -/
def lead (b : Binary) : ℤ :=
  leadOf b.fractions.1.2.1 b.fractions.2

theorem pow_lead_le (hb : 0 < b.significand) : 10 ^ b.lead ≤ b.value := by
  rw [value_eq]
  refine pow_leadOf_le ?_ b.denominator_pos
  exact Nat.mul_pos (Nat.mul_pos (by decide) hb) (Nat.pow_pos (by decide))

/-! ### The search -/

/-- The decimal with the point of the grid that has a number of digits. -/
def candidate (tie : Tie) (b : Binary) (count : Nat) : Option Digits :=
  (b.onGrid? tie (b.lead - count)).map fun c =>
    ⟨stripZeros c (digitCount c), b.lead - count + digitCount c - 1⟩

theorem shortest_eq (tie : Tie) (most : Nat) (b : Binary) :
    b.shortest tie most = ((List.range most).findSome? (b.candidate tie)).getD ⟨b.significand, 0⟩ :=
  rfl

theorem rounds_of_candidate (hb : 0 < b.significand) {count : Nat} {d : Digits}
    (h : b.candidate tie count = some d) : b.Rounds d.value := by
  obtain ⟨c, hc, rfl⟩ := Option.map_eq_some_iff.mp h
  rcases onGrid?_cases tie (b.lead - count) hb with ⟨c', hc', hpos, hrounds⟩ | ⟨hnone, -⟩
  · obtain rfl : c = c' := Option.some.inj (hc.symm.trans hc')
    rw [Digits.value_stripZeros hpos]
    convert hrounds using 3
    omega
  · rw [hnone] at hc
    cases hc

/-- With seventeen digits a decimal is found. -/
theorem isSome_candidate (tie : Tie) (hb : b.IsDouble) : (b.candidate tie 16).isSome = true := by
  have hfine : 10 ^ 16 * 10 ^ (b.lead - (16 : Nat)) ≤ b.value := by
    rw [← zpow_natCast, ← zpow_add₀ (by norm_num)]
    convert pow_lead_le hb.pos using 2
    omega
  rw [candidate, Option.isSome_map]
  rcases onGrid?_cases tie (b.lead - (16 : Nat)) hb.pos with ⟨c, hc, -⟩ | ⟨-, hbelow, habove⟩
  · rw [hc, Option.isSome_some]
  · rcases rounds_pointBelow_or_pointAbove hb hfine with hrounds | hrounds
    · exact absurd ⟨pointBelow_pos hfine, hrounds⟩ hbelow
    · exact absurd hrounds habove

/-- **The shortest decimal of a double rounds to the double.** -/
theorem shortest_rounds (tie : Tie) (hb : b.IsDouble) : b.Rounds (b.shortest tie 17).value := by
  rw [shortest_eq]
  cases hfound : (List.range 17).findSome? (b.candidate tie) with
  | none =>
      have hnone := List.findSome?_eq_none_iff.mp hfound 16 (by decide)
      have hsome := isSome_candidate tie hb
      rw [hnone] at hsome
      cases hsome
  | some d =>
      obtain ⟨count, -, hcandidate⟩ := List.exists_of_findSome?_eq_some hfound
      exact rounds_of_candidate hb.pos hcandidate

end Binary

/-! ### The text of a double -/

namespace Layout

variable {layout : Layout} (hending : layout.wholeEnding = ".0")
  (hplus : layout.positiveExponent = "+")
include hending hplus

/-- The text of a finite double has parts, and these stand for a number that rounds to it. -/
theorem exists_parts_float {x : Float} (hx : x.isFinite = true) :
    ∃ negative, ∃ p : Parts, p.IsDecimal ∧ layout.float x = signed negative p.text ∧
      ((Value.ofFloat x = .zero negative ∧ p.value = 0) ∨
        ∃ b, Value.ofFloat x = .finite negative b ∧ b.IsDouble ∧ b.Rounds p.value) := by
  rcases Value.ofFloat_of_isFinite hx with ⟨negative, hzero⟩ | ⟨negative, b, hfinite, hb⟩
  · refine ⟨negative, ⟨['0'], ['0'], none⟩, ⟨by simp, by simp, by simp, by simp⟩, ?_,
      Or.inl ⟨hzero, ?_⟩⟩
    · rw [float, hzero, value, hending]
      rfl
    · have hnone : Nat.ofDigitChars 10 (['0'] ++ ['0']) 0 = 0 := rfl
      rw [Parts.value, hnone, Nat.cast_zero, zero_mul]
  · obtain ⟨p, hp, htext, hvalue⟩ := Parts.exists_parts hending hplus (b.shortest layout.tie 17)
    refine ⟨negative, p, hp, ?_, Or.inr ⟨b, hfinite, hb, ?_⟩⟩
    · rw [float, hfinite, value, htext]
    · rw [hvalue]
      exact Binary.shortest_rounds layout.tie hb

/-- **Finite doubles with the same text are the same.** -/
theorem float_injective {x y : Float} (hx : x.isFinite = true) (hy : y.isFinite = true)
    (h : layout.float x = layout.float y) : x = y := by
  obtain ⟨s, p, hp, hptext, hpvalue⟩ := exists_parts_float hending hplus hx
  obtain ⟨t, q, hq, hqtext, hqvalue⟩ := exists_parts_float hending hplus hy
  rw [hptext, hqtext] at h
  obtain ⟨rfl, htext⟩ := signed_inj hp.head?_text hq.head?_text h
  have hvalue := Parts.value_eq_of_text_eq hp hq htext
  refine Value.ofFloat_injective hx hy ?_
  rcases hpvalue with ⟨hzero, hpzero⟩ | ⟨b, hb, hdouble, hrounds⟩ <;>
    rcases hqvalue with ⟨hzero', hqzero⟩ | ⟨b', hb', hdouble', hrounds'⟩
  · rw [hzero, hzero']
  · rw [← hvalue, hpzero] at hrounds'
    exact absurd hrounds'.low_le (not_le.mpr (Binary.low_pos hdouble'.pos))
  · rw [hvalue, hqzero] at hrounds
    exact absurd hrounds.low_le (not_le.mpr (Binary.low_pos hdouble.pos))
  · rw [hb, hb', hrounds.unique hdouble hdouble' (hvalue ▸ hrounds')]

end Layout

end Rewards.Decimal
