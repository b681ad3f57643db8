/-
How numbers are written tells them apart.

An integer is a sign and digits.  A double has a point or a power of ten as well, so that
it is never written like an integer, and its shortest decimal rounds to no other double.
A zero with a minus sign is another number than one without.  So the texts that the
program writes are faithful (`faithfulNumbers_chars`), and this is all that canonical
texts need to know of them.
-/
import Rewards.Proofs.Decimal.Shortest
import Rewards.Proofs.Json.Separation

namespace Rewards

/-- Texts of numbers that tell different numbers apart. -/
structure Json.FaithfulNumbers (number : Number → List Char) : Prop extends
    NumberTexts number where
  injective : ∀ m n : Number, m.isWritable = true → n.isWritable = true →
    number m = number n → m = n

namespace Number

open Decimal

/-! ### Integers -/

theorem integerChars_eq (n : Int) :
    integerChars n = Layout.signed (decide (n < 0)) (Nat.toDigits 10 n.natAbs) := by
  cases n with
  | ofNat n => rfl
  | negSucc n =>
      rw [integerChars, decide_eq_true (Int.negSucc_lt_zero n), Int.natAbs_negSucc]
      rfl

theorem head?_toDigits (n : Nat) : ∀ c ∈ (Nat.toDigits 10 n).head?, c.isDigit = true :=
  fun c hc => Parts.isDigit_toDigits n c (List.mem_of_mem_head? hc)

/-- Integers with the same text are the same. -/
theorem integerChars_injective : Function.Injective integerChars := by
  intro m n h
  rw [integerChars_eq, integerChars_eq] at h
  obtain ⟨hsign, hdigits⟩ := Layout.signed_inj (head?_toDigits _) (head?_toDigits _) h
  have habs : m.natAbs = n.natAbs := by
    have hread := congrArg (fun cs => Nat.ofDigitChars 10 cs 0) hdigits
    simpa only [Nat.ofDigitChars_ten_toDigits] using hread
  have hneg := decide_eq_decide.mp hsign
  omega

/-! ### Doubles -/

theorem exists_parts_float {x : Float} (hx : x.isFinite = true) :
    ∃ negative, ∃ p : Parts, p.IsDecimal ∧ layout.float x = Layout.signed negative p.text := by
  obtain ⟨negative, p, hp, htext, -⟩ := @Layout.exists_parts_float layout rfl rfl x hx
  exact ⟨negative, p, hp, htext⟩

/-- An integer is not written like a double. -/
theorem integerChars_ne_float (n : Int) {x : Float} (hx : x.isFinite = true) :
    integerChars n ≠ layout.float x := by
  intro h
  obtain ⟨negative, p, hp, htext⟩ := exists_parts_float hx
  rw [integerChars_eq, htext] at h
  obtain ⟨-, hdigits⟩ := Layout.signed_inj (head?_toDigits _) hp.head?_text h
  obtain ⟨c, hc, hmark⟩ := hp.exists_mark
  rw [← hdigits] at hc
  rw [Parts.isDigit_toDigits _ c hc] at hmark
  cases hmark

/-! ### The characters of numbers -/

theorem isNumberChar_signed {negative : Bool} {cs : List Char}
    (h : ∀ c ∈ cs, Json.isNumberChar c = true) :
    ∀ c ∈ Layout.signed negative cs, Json.isNumberChar c = true := by
  cases negative with
  | false => exact h
  | true => exact List.forall_mem_cons.mpr ⟨rfl, h⟩

theorem isNumberChar_of_isDigit {c : Char} (h : c.isDigit = true) : Json.isNumberChar c = true := by
  simp [Json.isNumberChar, h]

theorem signed_ne_nil {negative : Bool} {cs : List Char} (h : cs ≠ []) :
    Layout.signed negative cs ≠ [] := by
  cases negative with
  | false => exact h
  | true => exact List.cons_ne_nil _ _

theorem isNumberChar_integerChars (n : Int) :
    ∀ c ∈ integerChars n, Json.isNumberChar c = true := by
  rw [integerChars_eq]
  exact isNumberChar_signed fun c hc => isNumberChar_of_isDigit (Parts.isDigit_toDigits _ c hc)

theorem isNumberChar_text {p : Parts} (hp : p.IsDecimal) :
    ∀ c ∈ p.text, Json.isNumberChar c = true := by
  intro c hc
  rcases hp.mem_text hc with hdigit | rfl | rfl | rfl | rfl
  · exact isNumberChar_of_isDigit hdigit
  all_goals rfl

/-- The text of a number has a sign and a part without a sign that is made of digits and marks. -/
theorem numberTexts_chars : Json.NumberTexts chars where
  ne_nil n hn := by
    cases n with
    | integer n =>
        rw [chars, integerChars_eq]
        exact signed_ne_nil Nat.toDigits_ne_nil
    | real x =>
        obtain ⟨negative, p, hp, htext⟩ := exists_parts_float hn
        rw [chars, htext]
        exact signed_ne_nil hp.text_ne_nil
  numberChar n hn := by
    cases n with
    | integer n => exact isNumberChar_integerChars n
    | real x =>
        obtain ⟨negative, p, hp, htext⟩ := exists_parts_float hn
        rw [chars, htext]
        exact isNumberChar_signed (isNumberChar_text hp)

/-- No number is written as null, and neither is a double that is not finite. -/
theorem chars_ne_null (n : Number) : chars n ≠ "null".toList := by
  have hnumber : ∀ {cs : List Char}, (∀ c ∈ cs, Json.isNumberChar c = true) →
      cs ≠ "null".toList := by
    rintro cs hcs rfl
    exact absurd (hcs 'n' (by decide)) (by decide)
  cases n with
  | integer n => exact hnumber (isNumberChar_integerChars n)
  | real x =>
      rw [chars, Layout.float]
      cases Value.ofFloat x with
      | nan => decide
      | infinite negative => cases negative <;> decide
      | zero negative => cases negative <;> decide
      | finite negative b =>
          obtain ⟨p, hp, htext, -⟩ := @Parts.exists_parts layout rfl rfl (b.shortest layout.tie 17)
          rw [Layout.value, ← htext]
          exact hnumber (isNumberChar_signed (isNumberChar_text hp))

/-- **Different numbers have different texts, of characters that may stand in numbers.** -/
theorem faithfulNumbers_chars : Json.FaithfulNumbers chars where
  toNumberTexts := numberTexts_chars
  injective m n hm hn h := by
    cases m with
    | integer m =>
        cases n with
        | integer n => rw [integerChars_injective h]
        | real y => exact absurd h (integerChars_ne_float m hn)
    | real x =>
        cases n with
        | integer n => exact absurd h.symm (integerChars_ne_float n hm)
        | real y => rw [@Layout.float_injective layout rfl rfl x y hm hn h]

end Number

end Rewards
