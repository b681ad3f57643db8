/-
Decimal text and the number that it stands for.

Wherever a layout puts the point, and whether or not it writes a power of ten, its text
is made of the same parts: digits before the point, digits after it, and maybe a power.
Here the parts are found once for each form that a layout can choose
(`exists_parts`), and everything else is read off the parts: which characters
there are, and which number reading the text gives.
-/
import Mathlib
import Rewards.Decimal.Layout
import Rewards.Decimal.Reading

namespace Rewards.Decimal

/-- The number that digits stand for. -/
def Digits.value (d : Digits) : ℚ :=
  d.coefficient * 10 ^ (d.lead + 1 - digitCount d.coefficient)

/-! ### The parts of a text -/

/-- The parts of a decimal text. -/
structure Parts where
  /-- The digits before the point. -/
  whole : List Char
  /-- The digits after the point. -/
  fraction : List Char
  /-- The power of ten, if one is written. -/
  power : Option Int

namespace Parts

/-- The text of a power of ten. -/
def powerText : Option Int → List Char
  | none => []
  | some e => 'e' :: (if 0 ≤ e then '+' else '-') :: Nat.toDigits 10 e.natAbs

/-- The text with the parts. -/
def text (p : Parts) : List Char :=
  p.whole ++ (if p.fraction.isEmpty then [] else '.' :: p.fraction) ++ powerText p.power

/-- The number with the parts. -/
def value (p : Parts) : ℚ :=
  Nat.ofDigitChars 10 (p.whole ++ p.fraction) 0 * 10 ^ (p.power.getD 0 - p.fraction.length)

/-- Digits stand before the point, and there is a point or a power. -/
structure IsDecimal (p : Parts) : Prop where
  whole_ne_nil : p.whole ≠ []
  isDigit_whole : ∀ c ∈ p.whole, c.isDigit = true
  isDigit_fraction : ∀ c ∈ p.fraction, c.isDigit = true
  marked : p.fraction ≠ [] ∨ p.power.isSome = true

theorem isDigit_toDigits (n : Nat) : ∀ c ∈ Nat.toDigits 10 n, c.isDigit = true :=
  fun _ hc => Nat.isDigit_of_mem_toDigits (by decide) (by decide) hc

theorem isDigit_zeros (n : Nat) : ∀ c ∈ List.replicate n '0', c.isDigit = true := by
  intro c hc
  obtain rfl := List.eq_of_mem_replicate hc
  rfl

/-! ### The parts that a layout writes -/

variable {layout : Layout} {d : Digits}

/-- A whole number, positionally. -/
theorem exists_parts_whole (hending : layout.wholeEnding = ".0") (hplain : layout.isPlain d.lead)
    (hlead : 0 ≤ d.lead) (hlen : digitCount d.coefficient ≤ d.lead.toNat + 1) :
    ∃ p : Parts, p.IsDecimal ∧ p.text = layout.digits d ∧ p.value = d.value := by
  have hzeros : (d.lead.toNat + 1 - digitCount d.coefficient : Nat) =
      d.lead + 1 - digitCount d.coefficient := by omega
  -- the digits, the zeros that are missing up to the point, and one zero after it
  refine ⟨⟨Nat.toDigits 10 d.coefficient ++
    List.replicate (d.lead.toNat + 1 - digitCount d.coefficient) '0', ['0'], none⟩, ?_, ?_, ?_⟩
  · refine ⟨by simp [Nat.toDigits_ne_nil], ?_, by simp, Or.inl (by simp)⟩
    exact List.forall_mem_append.mpr ⟨isDigit_toDigits _, isDigit_zeros _⟩
  · have htake : (Nat.toDigits 10 d.coefficient).take (d.lead.toNat + 1) =
        Nat.toDigits 10 d.coefficient := List.take_of_length_le hlen
    have hdrop : (Nat.toDigits 10 d.coefficient).drop (d.lead.toNat + 1) = [] :=
      List.drop_of_length_le hlen
    simp [text, powerText, Layout.digits, hplain, hlead, htake, hdrop, hending, digitCount]
  · have hdigits : Nat.ofDigitChars 10 (Nat.toDigits 10 d.coefficient ++
        List.replicate (d.lead.toNat + 1 - digitCount d.coefficient) '0' ++ ['0']) 0 =
        10 * (10 ^ (d.lead.toNat + 1 - digitCount d.coefficient) * d.coefficient) := by
      rw [Nat.ofDigitChars_append, Nat.ofDigitChars_append, Nat.ofDigitChars_ten_toDigits,
        Nat.ofDigitChars_replicate_zero]
      rfl
    rw [value, Digits.value, hdigits, ← hzeros, zpow_natCast]
    push_cast
    norm_num
    ring

/-- A number with a fraction, positionally. -/
theorem exists_parts_fraction (hplain : layout.isPlain d.lead) (hlead : 0 ≤ d.lead)
    (hlen : d.lead.toNat + 1 < digitCount d.coefficient) :
    ∃ p : Parts, p.IsDecimal ∧ p.text = layout.digits d ∧ p.value = d.value := by
  have hdrop : (Nat.toDigits 10 d.coefficient).drop (d.lead.toNat + 1) ≠ [] := by
    intro hnil
    exact absurd (List.drop_eq_nil_iff.mp hnil) (Nat.not_le.mpr hlen)
  have hzeros : d.lead.toNat + 1 - (Nat.toDigits 10 d.coefficient).length = 0 :=
    Nat.sub_eq_zero_of_le (Nat.le_of_lt hlen)
  refine ⟨⟨(Nat.toDigits 10 d.coefficient).take (d.lead.toNat + 1),
    (Nat.toDigits 10 d.coefficient).drop (d.lead.toNat + 1), none⟩, ?_, ?_, ?_⟩
  · refine ⟨by simp [Nat.toDigits_ne_nil], fun c hc => ?_, fun c hc => ?_, Or.inl hdrop⟩
    · exact isDigit_toDigits _ c (List.mem_of_mem_take hc)
    · exact isDigit_toDigits _ c (List.mem_of_mem_drop hc)
  · simp only [text, powerText, Layout.digits, hplain, hlead, if_true, hzeros, List.replicate_zero,
      List.append_nil, List.isEmpty_iff, hdrop, if_false]
  · have hlength : ((Nat.toDigits 10 d.coefficient).drop (d.lead.toNat + 1)).length =
        digitCount d.coefficient - (d.lead.toNat + 1) := List.length_drop
    rw [value, Digits.value, List.take_append_drop, Nat.ofDigitChars_ten_toDigits, hlength]
    congr 2
    rw [Option.getD_none]
    omega

/-- A number below one, positionally. -/
theorem exists_parts_small (hplain : layout.isPlain d.lead) (hlead : ¬ 0 ≤ d.lead) :
    ∃ p : Parts, p.IsDecimal ∧ p.text = layout.digits d ∧ p.value = d.value := by
  refine ⟨⟨['0'], List.replicate ((-d.lead).toNat - 1) '0' ++ Nat.toDigits 10 d.coefficient, none⟩,
    ?_, ?_, ?_⟩
  · refine ⟨by simp, by simp, ?_, Or.inl (by simp [Nat.toDigits_ne_nil])⟩
    exact List.forall_mem_append.mpr ⟨isDigit_zeros _, isDigit_toDigits _⟩
  · simp [text, powerText, Layout.digits, hplain, hlead, Nat.toDigits_ne_nil]
  · have hdigits : Nat.ofDigitChars 10 (['0'] ++ (List.replicate ((-d.lead).toNat - 1) '0' ++
        Nat.toDigits 10 d.coefficient)) 0 = d.coefficient := by
      rw [Nat.ofDigitChars_append, Nat.ofDigitChars_append, Nat.ofDigitChars_replicate_zero,
        show Nat.ofDigitChars 10 ['0'] 0 = 0 from rfl, Nat.mul_zero,
        Nat.ofDigitChars_ten_toDigits]
    have hlength : (List.replicate ((-d.lead).toNat - 1) '0' ++
        Nat.toDigits 10 d.coefficient).length =
        (-d.lead).toNat - 1 + digitCount d.coefficient := by
      rw [List.length_append, List.length_replicate]
      rfl
    rw [value, Digits.value, hdigits, hlength]
    congr 2
    rw [Option.getD_none]
    omega

/-- A number with a power of ten. -/
theorem exists_parts_power (hplus : layout.positiveExponent = "+")
    (hplain : ¬ layout.isPlain d.lead) :
    ∃ p : Parts, p.IsDecimal ∧ p.text = layout.digits d ∧ p.value = d.value := by
  refine ⟨⟨(Nat.toDigits 10 d.coefficient).take 1, (Nat.toDigits 10 d.coefficient).drop 1,
    some d.lead⟩, ?_, ?_, ?_⟩
  · refine ⟨by simp [Nat.toDigits_ne_nil], fun c hc => ?_, fun c hc => ?_, Or.inr rfl⟩
    · exact isDigit_toDigits _ c (List.mem_of_mem_take hc)
    · exact isDigit_toDigits _ c (List.mem_of_mem_drop hc)
  · have hsign : (if 0 ≤ d.lead then layout.positiveExponent.toList else ['-']) =
        [if 0 ≤ d.lead then '+' else '-'] := by
      rw [hplus]
      split <;> rfl
    simp only [text, powerText, Layout.digits, if_neg hplain, hsign]
    simp
  · have hlength : ((Nat.toDigits 10 d.coefficient).drop 1).length = digitCount d.coefficient - 1 :=
      List.length_drop
    have hpos : 0 < digitCount d.coefficient := List.length_pos_iff.mpr Nat.toDigits_ne_nil
    rw [value, Digits.value, List.take_append_drop, Nat.ofDigitChars_ten_toDigits, hlength]
    congr 2
    rw [Option.getD_some]
    omega

/-- **The text of a decimal has parts, and these stand for the number of its digits.** -/
theorem exists_parts (hending : layout.wholeEnding = ".0") (hplus : layout.positiveExponent = "+")
    (d : Digits) : ∃ p : Parts, p.IsDecimal ∧ p.text = layout.digits d ∧ p.value = d.value := by
  by_cases hplain : layout.isPlain d.lead
  · by_cases hlead : 0 ≤ d.lead
    · by_cases hlen : digitCount d.coefficient ≤ d.lead.toNat + 1
      · exact exists_parts_whole hending hplain hlead hlen
      · exact exists_parts_fraction hplain hlead (Nat.not_le.mp hlen)
    · exact exists_parts_small hplain hlead
  · exact exists_parts_power hplus hplain

/-! ### Reading the parts -/

variable {p q : Parts}

theorem takeWhile_digits {digits : List Char} (h : ∀ c ∈ digits, c.isDigit = true)
    {rest : List Char} (hrest : ∀ c ∈ rest.head?, c.isDigit = false) :
    (digits ++ rest).takeWhile Char.isDigit = digits := by
  rw [List.takeWhile_append_of_pos h]
  cases rest with
  | nil => rw [List.takeWhile_nil, List.append_nil]
  | cons c more =>
      have hc : ¬ c.isDigit = true := by simp [hrest c rfl]
      rw [List.takeWhile_cons_of_neg hc, List.append_nil]

theorem dropWhile_digits {digits : List Char} (h : ∀ c ∈ digits, c.isDigit = true)
    {rest : List Char} (hrest : ∀ c ∈ rest.head?, c.isDigit = false) :
    (digits ++ rest).dropWhile Char.isDigit = rest := by
  have htake := takeWhile_digits h hrest
  have happend := List.takeWhile_append_dropWhile (p := Char.isDigit) (l := digits ++ rest)
  rw [htake] at happend
  exact List.append_cancel_left happend

theorem foldl_natOfDigits : ∀ {digits : List Char}, (∀ c ∈ digits, c.isDigit = true) → ∀ n : Nat,
    digits.foldl (fun acc c =>
      match acc, digit? c with
      | some n, some d => some (n * 10 + d)
      | _, _ => none) (some n) = some (Nat.ofDigitChars 10 digits n) := by
  intro digits
  induction digits with
  | nil => intro _ n; rfl
  | cons c rest ih =>
      intro h n
      have hc : digit? c = some (c.toNat - '0'.toNat) := if_pos (h c (by simp))
      simp only [List.foldl_cons, hc]
      rw [ih (fun d hd => h d (by simp [hd])), Nat.ofDigitChars_cons, Nat.mul_comm n 10]

/-- Digits are read as the number that they stand for. -/
theorem nat?_digits {digits : List Char} (hne : digits ≠ [])
    (h : ∀ c ∈ digits, c.isDigit = true) : nat? digits = some (Nat.ofDigitChars 10 digits 0) := by
  rw [nat?, natOfDigits?, if_neg (by simpa using hne)]
  exact foldl_natOfDigits h 0

theorem int?_power (e : Int) :
    int? ((if 0 ≤ e then '+' else '-') :: Nat.toDigits 10 e.natAbs) = some e := by
  have hnat : nat? (Nat.toDigits 10 e.natAbs) = some e.natAbs := by
    rw [nat?_digits Nat.toDigits_ne_nil (isDigit_toDigits _), Nat.ofDigitChars_ten_toDigits]
  by_cases h : 0 ≤ e
  · simp [int?, splitSign, h, hnat]
  · have hnegative : -(e.natAbs : Int) = e := by omega
    simpa [int?, splitSign, h, hnat] using hnegative

theorem head?_powerText (power : Option Int) :
    ∀ c ∈ (powerText power).head?, c.isDigit = false := by
  intro c hc
  cases power with
  | none => cases hc
  | some e =>
      obtain rfl : 'e' = c := Option.some.inj hc
      rfl

theorem unsigned?_whole {whole : List Char} (hne : whole ≠ [])
    (hwhole : ∀ c ∈ whole, c.isDigit = true) (power : Option Int) :
    unsigned? (whole ++ powerText power) = some (Nat.ofDigitChars 10 whole 0, power.getD 0) := by
  have htake := takeWhile_digits hwhole (head?_powerText power)
  have hdrop := dropWhile_digits hwhole (head?_powerText power)
  have hnat := nat?_digits hne hwhole
  cases power with
  | none =>
      simp only [unsigned?, htake, hdrop]
      simp [powerText, hnat]
  | some e =>
      simp only [unsigned?, htake, hdrop]
      simp [powerText, hnat, int?_power e]

theorem unsigned?_point {whole fraction : List Char} (hne : whole ≠ [])
    (hwhole : ∀ c ∈ whole, c.isDigit = true) (hfraction : ∀ c ∈ fraction, c.isDigit = true)
    (power : Option Int) :
    unsigned? (whole ++ '.' :: (fraction ++ powerText power)) =
      some (Nat.ofDigitChars 10 (whole ++ fraction) 0, power.getD 0 - fraction.length) := by
  have hpoint : ∀ c ∈ ('.' :: (fraction ++ powerText power)).head?, c.isDigit = false := by
    intro c hc
    obtain rfl : '.' = c := Option.some.inj hc
    rfl
  have htake := takeWhile_digits hwhole hpoint
  have hdrop := dropWhile_digits hwhole hpoint
  have htake' := takeWhile_digits hfraction (head?_powerText power)
  have hdrop' := dropWhile_digits hfraction (head?_powerText power)
  have hnat : nat? (whole ++ fraction) = some (Nat.ofDigitChars 10 (whole ++ fraction) 0) :=
    nat?_digits (by simp [hne]) (List.forall_mem_append.mpr ⟨hwhole, hfraction⟩)
  cases power with
  | none =>
      simp only [unsigned?, htake, hdrop, htake', hdrop']
      simp [powerText, hnat]
  | some e =>
      simp only [unsigned?, htake, hdrop, htake', hdrop']
      simp [powerText, hnat, int?_power e]

/-- **A text is read as its parts.** -/
theorem unsigned?_text (h : p.IsDecimal) :
    unsigned? p.text =
      some (Nat.ofDigitChars 10 (p.whole ++ p.fraction) 0, p.power.getD 0 - p.fraction.length) := by
  by_cases hpoint : p.fraction = []
  · rw [text, hpoint, List.isEmpty_nil, if_pos rfl, List.append_nil,
      List.length_nil, Int.natCast_zero, Int.sub_zero]
    exact unsigned?_whole h.whole_ne_nil h.isDigit_whole p.power
  · rw [text, if_neg (by simpa using hpoint), List.append_assoc, List.cons_append]
    exact unsigned?_point h.whole_ne_nil h.isDigit_whole h.isDigit_fraction p.power

/-- **The same text stands for the same number.** -/
theorem value_eq_of_text_eq (hp : p.IsDecimal) (hq : q.IsDecimal) (h : p.text = q.text) :
    p.value = q.value := by
  have hread := unsigned?_text hp
  rw [h, unsigned?_text hq] at hread
  obtain ⟨hcoefficient, hpower⟩ := Prod.mk.inj (Option.some.inj hread)
  rw [value, value, hcoefficient, hpower]

/-! ### The characters of a text -/

theorem IsDecimal.mem_text (h : p.IsDecimal) {c : Char} (hc : c ∈ p.text) :
    c.isDigit = true ∨ c = '.' ∨ c = 'e' ∨ c = '+' ∨ c = '-' := by
  rw [text, List.mem_append, List.mem_append] at hc
  rcases hc with (hwhole | hfraction) | hpower
  · exact Or.inl (h.isDigit_whole c hwhole)
  · split_ifs at hfraction
    · cases hfraction
    · rcases List.mem_cons.mp hfraction with rfl | hdigit
      · exact Or.inr (Or.inl rfl)
      · exact Or.inl (h.isDigit_fraction c hdigit)
  · rcases hp : p.power with _ | e
    · rw [hp] at hpower
      cases hpower
    · rw [hp, powerText, List.mem_cons, List.mem_cons] at hpower
      rcases hpower with rfl | rfl | hdigit
      · exact Or.inr (Or.inr (Or.inl rfl))
      · split <;> simp
      · exact Or.inl (isDigit_toDigits _ c hdigit)

theorem IsDecimal.head?_text (h : p.IsDecimal) : ∀ c ∈ p.text.head?, c.isDigit = true := by
  intro c hc
  obtain ⟨d, rest, hwhole⟩ := List.exists_cons_of_ne_nil h.whole_ne_nil
  rw [text, hwhole, List.cons_append, List.cons_append, List.head?_cons, Option.mem_some_iff] at hc
  exact h.isDigit_whole c (by rw [hwhole, hc]; exact List.mem_cons_self)

theorem IsDecimal.text_ne_nil (h : p.IsDecimal) : p.text ≠ [] := by
  simp [text, h.whole_ne_nil]

/-- A text is not of digits alone, as that of an integer is. -/
theorem IsDecimal.exists_mark (h : p.IsDecimal) : ∃ c ∈ p.text, c.isDigit = false := by
  rcases h.marked with hfraction | hpower
  · exact ⟨'.', by simp [text, hfraction], rfl⟩
  · obtain ⟨e, he⟩ := Option.isSome_iff_exists.mp hpower
    exact ⟨'e', by simp [text, powerText, he], rfl⟩

end Parts

/-- A sign can be told from a text that starts with a digit. -/
theorem Layout.signed_inj {s t : Bool} {cs ds : List Char} (hcs : ∀ c ∈ cs.head?, c.isDigit = true)
    (hds : ∀ d ∈ ds.head?, d.isDigit = true) (h : signed s cs = signed t ds) : s = t ∧ cs = ds := by
  have hminus : ¬ '-'.isDigit = true := by decide
  cases s <;> cases t
  · exact ⟨rfl, h⟩
  · exact absurd (hcs '-' (by rw [show cs = '-' :: ds from h]; rfl)) hminus
  · exact absurd (hds '-' (by rw [show ds = '-' :: cs from h.symm]; rfl)) hminus
  · exact ⟨rfl, (List.cons.inj h).2⟩

end Rewards.Decimal
