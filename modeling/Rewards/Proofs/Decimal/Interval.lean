/-
The reals that round to a double.

Two neighbouring doubles share one point, the middle between them, and it rounds to the
one whose significand is even.  So no number rounds to two doubles (`Rounds.unique`):
below a double and above the next smaller one there is nothing left over, also where the
power of two changes and the smaller one is only half as far away.

All ends are whole numbers of quarters of the last bit.
-/
import Mathlib
import Rewards.Proofs.Decimal.Value

namespace Rewards.Decimal.Binary

/-! ### The interval of a double -/

/-- A quarter of the last bit. -/
def quarter (b : Binary) : ℚ :=
  2 ^ (b.exponent - 2)

/-- The number itself. -/
def value (b : Binary) : ℚ :=
  4 * b.significand * b.quarter

/-- The middle between the number and the next smaller one. -/
def low (b : Binary) : ℚ :=
  (4 * b.significand - if b.narrowBelow then 1 else 2) * b.quarter

/-- The middle between the number and the next greater one. -/
def high (b : Binary) : ℚ :=
  (4 * b.significand + 2) * b.quarter

/-- A number rounds to a double: it is between the ends, and an end itself only if it is even. -/
structure Rounds (b : Binary) (x : ℚ) : Prop where
  low_le : b.low ≤ x
  le_high : x ≤ b.high
  strict_of_odd : b.significand % 2 = 1 → b.low < x ∧ x < b.high

theorem Rounds.of_lt {b : Binary} {x : ℚ} (hlow : b.low < x) (hhigh : x < b.high) : b.Rounds x :=
  ⟨hlow.le, hhigh.le, fun _ => ⟨hlow, hhigh⟩⟩

theorem quarter_pos (b : Binary) : 0 < b.quarter :=
  zpow_pos (by norm_num) _

theorem high_eq_value_add (b : Binary) : b.high = b.value + 2 * b.quarter := by
  rw [high, value]
  ring

theorem low_eq_value_sub (b : Binary) :
    b.low = b.value - (if b.narrowBelow then 1 else 2) * b.quarter := by
  rw [low, value]
  ring

theorem two_mul_quarter_le {a b : Binary} (h : a.exponent < b.exponent) :
    2 * a.quarter ≤ b.quarter := by
  have htwo : 2 * a.quarter = 2 ^ (a.exponent - 2 + 1) := by
    rw [quarter, zpow_add_one₀ (by norm_num), mul_comm]
  rw [htwo, quarter]
  exact zpow_le_zpow_right₀ (by norm_num) (by omega)

theorem low_pos {b : Binary} (hb : 0 < b.significand) : 0 < b.low := by
  have hsignificand : (1 : ℚ) ≤ b.significand := by exact_mod_cast hb
  refine mul_pos ?_ b.quarter_pos
  split <;> linarith

/-! ### Neighbours -/

/-- A double is below another one. -/
def Below (a b : Binary) : Prop :=
  a.exponent < b.exponent ∨ a.exponent = b.exponent ∧ a.significand < b.significand

/-- Two intervals do not overlap, and an end that they share is in one of them at most. -/
def Apart (a b : Binary) : Prop :=
  a.high < b.low ∨ a.high = b.low ∧ (a.significand % 2 = 1 ∨ b.significand % 2 = 1)

variable {a b : Binary}

/-- With the same power of two the next one has a significand of the other parity. -/
theorem apart_of_exponent_eq (ha : a.IsDouble) (hb : b.IsDouble)
    (hexponent : a.exponent = b.exponent) (hlt : a.significand < b.significand) : Apart a b := by
  -- the least significand of a power has no other one of that power below it
  have hwide : b.narrowBelow = false := by
    rw [Bool.eq_false_iff]
    intro hnarrow
    obtain ⟨hleast, hexp⟩ := hb.narrow.mp hnarrow
    rcases ha.normal with hnormal | hnone
    · omega
    · omega
  have hquarter : a.quarter = b.quarter := by rw [quarter, quarter, hexponent]
  have hpos := b.quarter_pos
  rw [Apart, high, low, hquarter, hwide, if_neg Bool.false_ne_true]
  rcases Nat.lt_or_eq_of_le (Nat.succ_le_of_lt hlt) with hfar | hnext
  · refine Or.inl (mul_lt_mul_of_pos_right ?_ hpos)
    have hcast : (a.significand : ℚ) + 2 ≤ b.significand := by exact_mod_cast hfar
    linarith
  · refine Or.inr ⟨?_, by omega⟩
    have hcast : (b.significand : ℚ) = a.significand + 1 := by exact_mod_cast hnext.symm
    rw [hcast]
    ring

/-- Where the power of two changes, the greatest significand below is odd. -/
theorem apart_of_exponent_lt (ha : a.IsDouble) (hb : b.IsDouble)
    (hexponent : a.exponent < b.exponent) : Apart a b := by
  have hleast : -1074 < b.exponent := lt_of_le_of_lt ha.least_le hexponent
  have hnormal : 2 ^ 52 ≤ b.significand := hb.normal.resolve_right (by omega)
  have hpos := a.quarter_pos
  -- the ends of both intervals, counted in quarters of the last bit of each
  have hmost : a.high ≤ (2 ^ 55 - 2) * a.quarter := by
    have hcast : (a.significand : ℚ) + 1 ≤ 2 ^ 53 := by exact_mod_cast ha.lt
    refine mul_le_mul_of_nonneg_right ?_ hpos.le
    linarith
  have hstart : (2 ^ 54 - 1) * b.quarter ≤ b.low := by
    refine mul_le_mul_of_nonneg_right ?_ b.quarter_pos.le
    by_cases hnarrow : b.narrowBelow = true
    · have hcast : (b.significand : ℚ) = 2 ^ 52 := by exact_mod_cast (hb.narrow.mp hnarrow).1
      rw [if_pos hnarrow, hcast]
      norm_num
    · have hne : b.significand ≠ 2 ^ 52 := fun heq => hnarrow (hb.narrow.mpr ⟨heq, hleast⟩)
      have hcast : (2 : ℚ) ^ 52 + 1 ≤ b.significand := by
        exact_mod_cast Nat.lt_of_le_of_ne hnormal hne.symm
      rw [if_neg hnarrow]
      linarith
  have hstep : (2 ^ 55 - 2) * a.quarter ≤ (2 ^ 54 - 1) * b.quarter := by
    have hdouble := mul_le_mul_of_nonneg_left (two_mul_quarter_le hexponent)
      (show (0 : ℚ) ≤ 2 ^ 54 - 1 by norm_num)
    linarith
  by_cases hodd : a.significand % 2 = 1
  · rcases lt_or_eq_of_le (hmost.trans (hstep.trans hstart)) with hlt | heq
    · exact Or.inl hlt
    · exact Or.inr ⟨heq, Or.inl hodd⟩
  · have hless : a.significand + 2 ≤ 2 ^ 53 := by
      have hlt := ha.lt
      omega
    have hcast : (a.significand : ℚ) + 2 ≤ 2 ^ 53 := by exact_mod_cast hless
    refine Or.inl (lt_of_lt_of_le ?_ (hstep.trans hstart))
    refine mul_lt_mul_of_pos_right ?_ hpos
    linarith

theorem Below.apart (h : Below a b) (ha : a.IsDouble) (hb : b.IsDouble) : Apart a b :=
  h.elim (apart_of_exponent_lt ha hb) fun h => apart_of_exponent_eq ha hb h.1 h.2

theorem Apart.not_rounds (h : Apart a b) {x : ℚ} (ha : a.Rounds x) : ¬ b.Rounds x := by
  intro hb
  rcases h with hlt | ⟨heq, hodd | hodd⟩
  · exact absurd (ha.le_high.trans_lt hlt) (not_lt.mpr hb.low_le)
  · exact absurd (heq ▸ (ha.strict_of_odd hodd).2) (not_lt.mpr hb.low_le)
  · exact absurd (heq ▸ (hb.strict_of_odd hodd).1) (not_lt.mpr ha.le_high)

/-- **No number rounds to two doubles.** -/
theorem Rounds.unique {x : ℚ} (ha : a.IsDouble) (hb : b.IsDouble) (hax : a.Rounds x)
    (hbx : b.Rounds x) : a = b := by
  have hnot : ¬ Below a b := fun h => (h.apart ha hb).not_rounds hax hbx
  have hnot' : ¬ Below b a := fun h => (h.apart hb ha).not_rounds hbx hax
  unfold Below at hnot hnot'
  exact ha.eq hb (by omega) (by omega)

end Rewards.Decimal.Binary
