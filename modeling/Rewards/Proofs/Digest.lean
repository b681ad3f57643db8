/-
Digests as text, in order, and colliding.

A digest is handed over as sixty-four hexadecimal digits, so nothing may be lost on
the way: reading the text of a digest gives the digest back.  Two digests are joined
with the lesser one first, so what is joined does not depend on which one was named
first, and from the joined bytes the two can be told again, up to that order.

Nothing is assumed of the function that makes digests.  Where two texts ought to be
the same and are not, the conclusion is that the function collides on them, and it
says among which strings of bytes: `Collision` is a statement about a list that was
really hashed, not about the function as a whole, of which it would be trivial.
-/
import Mathlib
import Rewards.Digest

namespace Rewards

/-- Two different strings of bytes in a list have the same digest. -/
def Collision (digest : List UInt8 → Digest) (hashed : List (List UInt8)) : Prop :=
  ∃ x ∈ hashed, ∃ y ∈ hashed, x ≠ y ∧ digest x = digest y

namespace Collision

variable {digest : List UInt8 → Digest} {hashed more : List (List UInt8)}

/-- A collision among some strings is one among more of them. -/
theorem mono (h : Collision digest hashed) (hsub : hashed ⊆ more) : Collision digest more := by
  obtain ⟨x, hx, y, hy, hne, heq⟩ := h
  exact ⟨x, hsub hx, y, hsub hy, hne, heq⟩

/-- A collision among the strings of two lists is one among more strings on both sides. -/
theorem append {others moreOthers : List (List UInt8)} (h : Collision digest (hashed ++ others))
    (hsub : hashed ⊆ more) (hothers : others ⊆ moreOthers) :
    Collision digest (more ++ moreOthers) :=
  h.mono fun _ hx => (List.mem_append.mp hx).elim (fun hleft => List.mem_append_left _ (hsub hleft))
    fun hright => List.mem_append_right _ (hothers hright)

/-- It makes no difference which of two lists comes first. -/
theorem swap (h : Collision digest (hashed ++ more)) : Collision digest (more ++ hashed) :=
  h.mono fun _ hx => List.perm_append_comm.mem_iff.mp hx

/-- Strings with the same digest are the same, or collide. -/
theorem eq_or {x y : List UInt8} (hx : x ∈ hashed) (hy : y ∈ hashed) (heq : digest x = digest y) :
    x = y ∨ Collision digest hashed := by
  by_cases hne : x = y
  · exact Or.inl hne
  · exact Or.inr ⟨x, hx, y, hy, hne, heq⟩

end Collision

/-! ### Hexadecimal text -/

namespace Hex

theorem digit?_digit {n : Nat} (h : n < 16) : digit? (digit n) = some n := by
  interval_cases n <;> rfl

theorem toLower_digit {n : Nat} (h : n < 16) : (digit n).toLower = digit n := by
  interval_cases n <;> rfl

/-- Reading the digits of bytes gives the bytes back. -/
theorem decode_encode (bytes : List UInt8) : decode (encode bytes) = some bytes := by
  induction bytes with
  | nil => rfl
  | cons b rest ih =>
      have hb : b.toNat < 256 := b.toNat_lt
      have hhigh : digit? (digit (b.toNat / 16)) = some (b.toNat / 16) := digit?_digit (by omega)
      have hlow : digit? (digit (b.toNat % 16)) = some (b.toNat % 16) := digit?_digit (by omega)
      have hsum : b.toNat / 16 * 16 + b.toNat % 16 = b.toNat := by omega
      simp only [encode, decode, hhigh, hlow, ih, hsum]
      rw [UInt8.ofNat_toNat]

/-- Bytes are written in lower case. -/
theorem map_toLower_encode (bytes : List UInt8) : (encode bytes).map Char.toLower = encode bytes := by
  induction bytes with
  | nil => rfl
  | cons b rest ih =>
      have hb : b.toNat < 256 := b.toNat_lt
      have hhigh : (digit (b.toNat / 16)).toLower = digit (b.toNat / 16) :=
        toLower_digit (by omega)
      have hlow : (digit (b.toNat % 16)).toLower = digit (b.toNat % 16) := toLower_digit (by omega)
      simp only [encode, List.map_cons, hhigh, hlow, ih]

end Hex

namespace Digest

@[ext] theorem ext {a b : Digest} (h : a.bytes = b.bytes) : a = b := by
  cases a
  cases b
  simpa using h

@[simp] theorem toList_hex (d : Digest) : d.hex.toList = Hex.encode d.bytes := by
  simp [hex]

/-- **Reading the text of a digest gives the digest back.** -/
@[simp] theorem ofHex?_hex (d : Digest) : ofHex? d.hex = some d := by
  simp [ofHex?, ofBytes?, Hex.decode_encode, d.length_eq]

theorem hex_injective {a b : Digest} (h : a.hex = b.hex) : a = b := by
  have hread : ofHex? a.hex = ofHex? b.hex := by rw [h]
  simpa using hread

/-- The text of a digest has no upper-case letter. -/
theorem lower_hex (d : Digest) : String.ofList (d.hex.toList.map Char.toLower) = d.hex := by
  rw [toList_hex, Hex.map_toLower_encode]
  rfl

/-! ### Two digests in order -/

/-- The lesser and the greater of two digests are the two of them. -/
theorem least_greatest (a b : Digest) :
    (a.least b = a ∧ a.greatest b = b) ∨ (a.least b = b ∧ a.greatest b = a) := by
  by_cases h : b.bytes < a.bytes
  · exact Or.inr ⟨if_pos h, if_pos h⟩
  · exact Or.inl ⟨if_neg h, if_neg h⟩

/-- Digests that are not before one another are the same. -/
theorem eq_of_not_lt {a b : Digest} (hab : ¬ a.bytes < b.bytes) (hba : ¬ b.bytes < a.bytes) :
    a = b :=
  ext (List.le_antisymm (List.not_lt.mp hba) (List.not_lt.mp hab))

theorem least_comm (a b : Digest) : a.least b = b.least a := by
  unfold least
  by_cases hba : b.bytes < a.bytes
  · rw [if_pos hba, if_neg (List.lt_asymm hba)]
  · by_cases hab : a.bytes < b.bytes
    · rw [if_neg hba, if_pos hab]
    · rw [if_neg hba, if_neg hab, eq_of_not_lt hab hba]

theorem greatest_comm (a b : Digest) : a.greatest b = b.greatest a := by
  unfold greatest
  by_cases hba : b.bytes < a.bytes
  · rw [if_pos hba, if_neg (List.lt_asymm hba)]
  · by_cases hab : a.bytes < b.bytes
    · rw [if_neg hba, if_pos hab]
    · rw [if_neg hba, if_neg hab, eq_of_not_lt hab hba]

end Digest

end Rewards
