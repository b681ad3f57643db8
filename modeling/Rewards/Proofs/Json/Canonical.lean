/-
The canonical text is a normal form of JSON values.

Values have the same text exactly if they are the same up to the order of members and
the members that later ones replace: the text holds nothing that depends on either, and
nothing else is lost in it.  Which numbers are the same is a matter of how numbers are
written, so first it is their texts that are compared; if different numbers have
different texts, it is the numbers.
-/
import Rewards.Proofs.Json.Number

namespace Rewards.Json

variable {number : Number → List Char}

/-! ### Texts and values -/

/-- **Values have the same text exactly if they are the same but for how numbers are written.** -/
theorem charsWith_eq_iff (hnumber : NumberTexts number) {a b : Json} (ha : a.isWritable = true)
    (hb : b.isWritable = true) :
    charsWith number a = charsWith number b ↔ Same (fun m n => number m = number n) a b :=
  ⟨fun h => (same_of_append hnumber a b ha hb ended_nil ended_nil (congrArg (· ++ []) h)).1,
    charsWith_eq_of_same fun _ _ h => h⟩

/-! ### Numbers that are told apart -/

/-- Values are the same for a weaker relation if the numbers that can be written are. -/
theorem Same.imp {sameNumber weaker : Number → Number → Prop}
    (himp : ∀ m n : Number, m.isWritable = true → n.isWritable = true →
      sameNumber m n → weaker m n) {a b : Json} (h : Same sameNumber a b) :
    a.isWritable = true → b.isWritable = true → Same weaker a b := by
  induction h with
  | null => exact fun _ _ => .null
  | bool b => exact fun _ _ => .bool b
  | number h =>
      intro ha hb
      rw [isWritable_number] at ha hb
      exact .number (himp _ _ ha hb h)
  | text s => exact fun _ _ => .text s
  | array length_eq _ ih =>
      intro ha hb
      rw [isWritable_array_iff] at ha hb
      exact .array length_eq fun i v w hv hw =>
        ih i v w hv hw (ha v (List.mem_of_getElem? hv)) (hb w (List.mem_of_getElem? hw))
  | object keys _ ih =>
      intro ha hb
      rw [isWritable_object_iff] at ha hb
      exact .object keys fun key v w hv hw =>
        ih key v w hv hw (ha _ (mem_of_lastMember? hv)) (hb _ (mem_of_lastMember? hw))

/-- Values with faithfully written numbers have the same text exactly if they are the same. -/
theorem charsWith_eq_iff_of_faithful (hnumber : FaithfulNumbers number) {a b : Json}
    (ha : a.isWritable = true) (hb : b.isWritable = true) :
    charsWith number a = charsWith number b ↔ Same (· = ·) a b := by
  rw [charsWith_eq_iff hnumber.toNumberTexts ha hb]
  constructor
  · exact fun h => h.imp hnumber.injective ha hb
  · exact fun h => h.imp (fun m n _ _ hmn => congrArg number hmn) ha hb

/-- Values with the same canonical text are the same. -/
theorem same_of_canonical_eq {a b : Json} (ha : a.isWritable = true) (hb : b.isWritable = true)
    (h : a.canonical = b.canonical) : Same (· = ·) a b :=
  (charsWith_eq_iff_of_faithful Number.faithfulNumbers_chars ha hb).mp (String.ofList_inj.mp h)

/--
**The canonical text is a faithful normal form.**  Values have the same text exactly if they
are the same, whatever the order of their members.  That goes for any way to write numbers
that tells different ones apart by texts of digits, signs, points and exponent marks, and
the program's own is one.  All numbers of JSON can be written: an integer is a word, a double
is finite.
-/
theorem canonical_eq_iff_same {a b : Json} (ha : a.isWritable = true) (hb : b.isWritable = true) :
    (∀ number : Number → List Char, FaithfulNumbers number →
      (charsWith number a = charsWith number b ↔ Same (· = ·) a b)) ∧
    (a.canonical = b.canonical ↔ Same (· = ·) a b) := by
  refine ⟨fun number hnumber => charsWith_eq_iff_of_faithful hnumber ha hb, ?_⟩
  rw [canonical, canonical, String.ofList_inj]
  exact charsWith_eq_iff_of_faithful Number.faithfulNumbers_chars ha hb

/--
The theorem where members trade places and a later one replaces an earlier one, which keeps the
text, and where an integer and a double trade places in an array, which does not.
-/
theorem canonical_eq_iff_same_reordered :
    let list := Json.array [.number (.integer 1), .number (.real 1.0), .text "\"\\,\n"]
    let swapped := Json.array [.number (.real 1.0), .number (.integer 1), .text "\"\\,\n"]
    let v := Json.object [("b", .bool true), ("]", list), ("b", .null)]
    let reordered := Json.object [("b", .null), ("]", list)]
    let changed := Json.object [("b", .null), ("]", swapped)]
    v.isWritable = true ∧ reordered.isWritable = true ∧ changed.isWritable = true ∧
      FaithfulNumbers Number.chars ∧
      charsWith Number.chars v = charsWith Number.chars reordered ∧
      v.canonical = reordered.canonical ∧ v.canonical ≠ changed.canonical := by
  intro list swapped v reordered changed
  have hv : v.isWritable = true := by decide +kernel
  have hreordered : reordered.isWritable = true := by decide +kernel
  have hchanged : changed.isWritable = true := by decide +kernel
  have hfaithful := Number.faithfulNumbers_chars
  have hsame : Same (· = ·) v reordered := by
    refine .object_of_forall (fun key => ?_) fun m _ => .refl (fun _ => rfl) m.2
    simp only [lastMember?]
    by_cases hb : "b" = key <;> by_cases hbracket : "]" = key <;> simp [hb, hbracket]
    exact absurd (hb.trans hbracket.symm) (by decide)
  refine ⟨hv, hreordered, hchanged, hfaithful, ?_, ?_, ?_⟩
  · exact ((canonical_eq_iff_same hv hreordered).1 _ hfaithful).mpr hsame
  · exact (canonical_eq_iff_same hv hreordered).2.mpr hsame
  · intro heq
    have hother := (canonical_eq_iff_same hv hchanged).2.mp heq
    dsimp only [v, changed] at hother
    obtain _ | _ | _ | _ | _ | ⟨-, hmembers⟩ := hother
    have hitems := hmembers "]" list swapped rfl rfl
    dsimp only [list, swapped] at hitems
    obtain _ | _ | _ | _ | ⟨-, hitems⟩ := hitems
    obtain _ | _ | ⟨hnumber⟩ := hitems 0 _ _ rfl rfl
    cases hnumber

end Rewards.Json
