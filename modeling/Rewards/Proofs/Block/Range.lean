/-
Ranges that are in order, and one that need not be.

A range covers at least one block if its first block does not come after its last.  All that is
asked of a range rests on this: that it is not empty, that its length can be computed, and that
the length is the number of blocks that it covers.  There are three ways to come by a range.  Making
one checks the order, and the range of a payment cycle is in order because the cycle ends after the
start of the window.  Reading one checks nothing but the two words, so what is read is in order only
if what was stated is.

The length is computed with checked words, which fail below zero and above the last word
(`length?_eq_checked`).  Of the ranges in order only that of all blocks has a length that is no
word.
-/
import Rewards.Proofs.Cycle
import Rewards.Proofs.Shape.Positional
import Rewards.Proofs.Shape.RoundTrip

namespace Rewards

/-- The sum of two words, if it is a word. -/
def Word.checkedAdd? (a b : UInt64) : Option UInt64 :=
  if a.toNat + b.toNat < count 64 then some (a + b) else none

namespace BlockRange

open Shape Shape.Fields

variable {range : BlockRange}

/-- The range of all blocks. -/
def all : BlockRange :=
  ⟨0, 18446744073709551615⟩

/-! ### The blocks of a range -/

/-- **Checked words compute the length.** -/
theorem length?_eq_checked (range : BlockRange) :
    range.length? = (Word.checkedSub? range.last range.first).bind (Word.checkedAdd? · 1) := by
  rw [length?, Word.checkedSub?]
  by_cases hle : range.first ≤ range.last
  · have hsub : (range.last - range.first).toNat = range.last.toNat - range.first.toNat :=
      UInt64.toNat_sub_of_le _ _ hle
    rw [if_neg (UInt64.not_lt.mpr hle), if_pos hle, Option.bind_some, Word.checkedAdd?, hsub]
    rfl
  · rw [if_pos (UInt64.not_le.mp hle), if_neg hle, Option.bind_none]

/-- **A range in order covers as many blocks as there are numbers from its first to its last.** -/
theorem ncard_contains (h : range.first ≤ range.last) :
    {b : Block | range.contains b = true}.ncard = range.last.toNat - range.first.toNat + 1 := by
  have hle : range.first.toNat ≤ range.last.toNat := h
  have hnumbers : UInt64.toNat '' {b : Block | range.contains b = true} =
      (Finset.Icc range.first.toNat range.last.toNat : Set Nat) := by
    ext n
    simp only [Set.mem_image, Set.mem_ofPred_eq, contains_iff, Finset.coe_Icc, Set.mem_Icc]
    constructor
    · rintro ⟨b, hb, rfl⟩
      exact hb
    · intro hn
      have hword : (UInt64.ofNat n).toNat = n :=
        UInt64.toNat_ofNat_of_lt' (Nat.lt_of_le_of_lt hn.2 range.last.toNat_lt)
      exact ⟨UInt64.ofNat n, by rwa [hword], hword⟩
  rw [← Set.ncard_image_of_injective _ fun a b => UInt64.toNat_inj.mp, hnumbers,
    Set.ncard_coe_finset, Nat.card_Icc]
  omega

theorem eq_all_iff : range = all ↔
    range.first.toNat = 0 ∧ range.last.toNat = Word.count 64 - 1 := by
  have hfirst : range.first = 0 ↔ range.first.toNat = 0 := UInt64.toNat_inj.symm
  have hlast : range.last = 18446744073709551615 ↔ range.last.toNat = Word.count 64 - 1 :=
    UInt64.toNat_inj.symm
  rw [← hfirst, ← hlast]
  cases range
  simp [all]

/-- A range in order has a length unless it has all blocks. -/
theorem length?_of_le (h : range.first ≤ range.last) :
    (range = all ∧ range.length? = none) ∨ (range ≠ all ∧ ∃ n, range.length? = some n ∧
      n.toNat = range.last.toNat - range.first.toNat + 1) := by
  have hle : range.first.toNat ≤ range.last.toNat := h
  have hlast : range.last.toNat < Word.count 64 := range.last.toNat_lt
  have hsub : (range.last - range.first).toNat = range.last.toNat - range.first.toNat :=
    UInt64.toNat_sub_of_le _ _ h
  rw [length?, if_neg (UInt64.not_lt.mpr h), Ne, eq_all_iff]
  split
  next hfits =>
    refine Or.inr ⟨by omega, _, rfl, ?_⟩
    rw [UInt64.toNat_add, hsub]
    exact Nat.mod_eq_of_lt hfits
  next hmany => exact Or.inl ⟨⟨by omega, by omega⟩, rfl⟩

/-- **A range that is not in order covers nothing and has no length.** -/
theorem void_of_lt (h : range.last < range.first) :
    range.length? = none ∧ ∀ b, range.contains b = false := by
  have hlt : range.last.toNat < range.first.toNat := h
  refine ⟨by rw [length?, if_pos h], fun b => ?_⟩
  rw [← Bool.not_eq_true, contains_iff]
  omega

/-! ### Ranges that can be relied on -/

/-- A range is in order, and what it says of its blocks is right. -/
structure IsSound (range : BlockRange) : Prop where
  in_order : range.first ≤ range.last
  /-- The length fails to be a word for the range of all blocks only. -/
  length?_eq_none_iff : range.length? = none ↔ range = all
  /-- The length is the number of blocks that are covered. -/
  length_eq : ∀ n, range.length? = some n →
    n.toNat = {b : Block | range.contains b = true}.ncard
  /-- It is right that the range is never called empty. -/
  isEmpty_iff : range.isEmpty = true ↔ ∀ b, range.contains b = false

/-- **Ranges in order can be relied on, and no others.** -/
theorem isSound_iff : IsSound range ↔ range.first ≤ range.last := by
  refine ⟨IsSound.in_order, fun h => ?_⟩
  have hlength := length?_of_le h
  have hfirst : range.contains range.first = true := contains_iff.mpr ⟨Nat.le_refl _, h⟩
  refine ⟨h, ?_, ?_, ?_⟩
  · rcases hlength with ⟨hall, hnone⟩ | ⟨hall, n, hn, -⟩
    · exact iff_of_true hnone hall
    · exact iff_of_false (by simp [hn]) hall
  · intro n hn
    rcases hlength with ⟨-, hnone⟩ | ⟨-, m, hm, hcount⟩
    · rw [hnone] at hn
      cases hn
    · rw [hn] at hm
      rw [ncard_contains h, Option.some.inj hm, hcount]
  · exact iff_of_false Bool.false_ne_true fun hnone => by simp [hnone] at hfirst

theorem make_eq_ok_iff {first last : Block} :
    make first last = .ok range ↔ first ≤ last ∧ range = ⟨first, last⟩ := by
  rw [make]
  split
  next hlt => exact iff_of_false nofun fun h => UInt64.not_le.mpr hlt h.1
  next hle =>
    constructor
    · intro h
      exact ⟨UInt64.not_lt.mp hle, (Except.ok.inj h).symm⟩
    · rintro ⟨-, rfl⟩
      rfl

/-! ### Reading a range -/

/-- A JSON value states a range: it is an object with the two blocks, of a repeated key the last,
or the array of the two. -/
inductive States : Json → BlockRange → Prop
  | object {members : List (String × Json)} {range : BlockRange}
      (first : Json.lastMember? "min_block" members = some (.natural range.first.toNat))
      (last : Json.lastMember? "max_block" members = some (.natural range.last.toNat)) :
      States (.object members) range
  | array (range : BlockRange) :
      States (.array [.natural range.first.toNat, .natural range.last.toNat]) range

theorem read_array_iff {items : List Json} :
    (read (Json.array items) : Except Mismatch BlockRange) = .ok range ↔
      items = [.natural range.first.toNat, .natural range.last.toNat] := by
  refine (((describes_required _ _).map _ |>.required (by simp)).record_array_eq_ok_iff
    (by decide)).trans ?_
  cases range
  match items with
  | [] => simp [isField_word_iff, valueOf?]
  | [first] => simp [isField_word_iff, valueOf?]
  | [first, last] => simp [isField_word_iff, valueOf?]
  | _ :: _ :: _ :: _ => simp

/-- **What is read is what is stated**, whatever the order of the two blocks. -/
theorem read_eq_ok_iff {json : Json} :
    (read json : Except Mismatch BlockRange) = .ok range ↔ States json range := by
  constructor
  · intro h
    rcases object_or_array_of_record h with ⟨members, rfl⟩ | ⟨items, rfl⟩
    · obtain ⟨hfirst, hlast⟩ := read_object_iff.mp h
      exact .object (isField_word_iff.mp hfirst) (isField_word_iff.mp hlast)
    · rw [read_array_iff.mp h]
      exact .array range
  · intro h
    cases h with
    | object hfirst hlast =>
        exact read_object_iff.mpr ⟨isField_word_iff.mpr hfirst, isField_word_iff.mpr hlast⟩
    | array => exact read_array_iff.mpr rfl

/--
**A range can be relied on unless it is stated out of order.**  Making a range refuses two blocks
that are not in order and gives any others, and the range of a cycle is in order; so both can be
relied on, as can every range in order and no other.  What is read is what is stated, which may be
out of order; there a range covers nothing though it is not called empty, and it has no length,
since the first of the two checked steps goes below zero.
-/
theorem sound_unless_stated_inverted (range : BlockRange) :
    (∀ first last, make first last = .ok range ↔ IsSound range ∧ range = ⟨first, last⟩) ∧
    (∀ (core : CoreParameters) cycle, core.cycleRange? cycle = some range → IsSound range) ∧
    (∀ json, (read json : Except Mismatch BlockRange) = .ok range ↔ States json range) ∧
    (IsSound range ↔ range.first ≤ range.last) ∧
    range.length? = (Word.checkedSub? range.last range.first).bind (Word.checkedAdd? · 1) ∧
    (range.last < range.first →
      range.length? = none ∧ range.isEmpty = false ∧ ∀ b, range.contains b = false) := by
  refine ⟨?_, ?_, fun json => read_eq_ok_iff, isSound_iff, length?_eq_checked range,
    fun h => ⟨(void_of_lt h).1, rfl, (void_of_lt h).2⟩⟩
  · intro first last
    rw [make_eq_ok_iff, isSound_iff]
    exact and_congr_left fun heq => by rw [heq]
  · intro core cycle hrange
    exact isSound_iff.mpr (CoreParameters.first_le_last_of_cycleRange? hrange)

/-- The first cycle of a window is cut at its start, and what is left of it can be relied on; a
range from ten to nine has no length. -/
theorem sound_unless_stated_inverted_cut :
    (⟨⟨[], .nil⟩, 100, 50, 400, "0x1"⟩ : CoreParameters).cycleRange? 120 = some ⟨50, 119⟩ ∧
      IsSound ⟨50, 119⟩ ∧
      (9 : Block) < 10 ∧ (⟨10, 9⟩ : BlockRange).length? = none := by
  have hcut : (⟨⟨[], .nil⟩, 100, 50, 400, "0x1"⟩ : CoreParameters).cycleRange? 120 =
      some ⟨50, 119⟩ := by
    decide
  obtain ⟨-, hcycle, -⟩ := sound_unless_stated_inverted ⟨50, 119⟩
  obtain ⟨-, -, -, -, -, hvoid⟩ := sound_unless_stated_inverted ⟨10, 9⟩
  exact ⟨hcut, hcycle _ _ hcut, by decide, (hvoid (by decide)).1⟩

/-- **What is read may cover nothing**, though it is not called empty. -/
theorem reads_inverted_range :
    (read (Json.object [("min_block", .natural 10), ("max_block", .natural 9)]) :
      Except Mismatch BlockRange) = .ok ⟨10, 9⟩ ∧
    ¬ IsSound ⟨10, 9⟩ ∧ (⟨10, 9⟩ : BlockRange).length? = none ∧
    (⟨10, 9⟩ : BlockRange).isEmpty = false ∧ ∀ b, (⟨10, 9⟩ : BlockRange).contains b = false := by
  have hlt : (⟨10, 9⟩ : BlockRange).last < (⟨10, 9⟩ : BlockRange).first := by decide
  refine ⟨read_eq_ok_iff.mpr (.object rfl rfl), ?_, (void_of_lt hlt).1, rfl, (void_of_lt hlt).2⟩
  rw [isSound_iff]
  decide

end BlockRange

end Rewards
