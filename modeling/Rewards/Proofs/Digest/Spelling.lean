/-
How a digest may be spelled.

A digest is written in one way and read in many, because a digit counts in either case.  What a
text spells is said here without reading it: the values of its digits are the halves of the bytes,
one after the other.  The reader finds exactly that (`Digest.ofHex?_eq_some_iff`), and the writer
is its inverse up to case (`spells_iff_lower`).  So a text that is turned into lower case and
compared with a digest that is written out is treated as if it had been read, which is what makes
it safe to read some texts and to compare others.
-/
import Rewards.Proofs.Digest

namespace Rewards

theorem isHexDigit_iff {c : Char} : Hex.isDigit c = true ↔
    ('0' ≤ c ∧ c ≤ '9') ∨ ('a' ≤ c ∧ c ≤ 'f') ∨ ('A' ≤ c ∧ c ≤ 'F') := by
  unfold Hex.isDigit Hex.digit?
  split_ifs with hdecimal hlower hupper
  · simp [hdecimal]
  · simp [hlower]
  · simp [hupper]
  · simp [hdecimal, hlower, hupper]

namespace Hex

/-- The two halves of each byte, the greater one first. -/
def halves (bytes : List UInt8) : List Nat :=
  bytes.flatMap fun b => [b.toNat / 16, b.toNat % 16]

/-! ### One digit -/

/-- All digits are ASCII characters. -/
theorem toNat_lt_of_isDigit {c : Char} (h : isDigit c = true) : c.toNat < 128 := by
  have hle : c ≤ '9' ∨ c ≤ 'f' ∨ c ≤ 'F' :=
    (isHexDigit_iff.mp h).imp And.right (Or.imp And.right And.right)
  have htoNat : ∀ {d : Char}, c ≤ d → c.toNat ≤ d.toNat := fun hd => hd
  rcases hle with hle | hle | hle
  · exact Nat.lt_of_le_of_lt (htoNat hle) (by decide)
  · exact Nat.lt_of_le_of_lt (htoNat hle) (by decide)
  · exact Nat.lt_of_le_of_lt (htoNat hle) (by decide)

/-- What holds of each ASCII character holds of a digit. -/
theorem of_isDigit {P : Char → Prop} (h : ∀ k < 128, P (Char.ofNat k)) {c : Char}
    (hc : isDigit c = true) : P c := by
  have hat := h c.toNat (toNat_lt_of_isDigit hc)
  rwa [Char.ofNat_toNat] at hat

theorem digit?_lt {c : Char} {n : Nat} (h : digit? c = some n) : n < 16 := by
  have hall : ∀ k < 128, ∀ n ∈ digit? (Char.ofNat k), n < 16 := by decide
  exact of_isDigit (P := fun c => ∀ n ∈ digit? c, n < 16) hall (by simp [isDigit, h]) n h

/-- A digit is written as its lower-case form. -/
theorem digit_of_digit? {c : Char} {n : Nat} (h : digit? c = some n) : digit n = c.toLower := by
  have hall : ∀ k < 128, ∀ n ∈ digit? (Char.ofNat k), digit n = (Char.ofNat k).toLower := by decide
  exact of_isDigit (P := fun c => ∀ n ∈ digit? c, digit n = c.toLower) hall
    (by simp [isDigit, h]) n h

/-- The case of a digit makes no difference to its value. -/
theorem digit?_toLower (c : Char) : digit? c.toLower = digit? c := by
  by_cases hascii : c.toNat < 128
  · have hall : ∀ k < 128, digit? (Char.ofNat k).toLower = digit? (Char.ofNat k) := by decide
    simpa only [Char.ofNat_toNat] using hall c.toNat hascii
  · have hupper : ¬ c.isUpper = true := by
      intro h
      simp only [Char.isUpper, decide_eq_true_eq] at h
      have hle : c.toNat ≤ 90 := h.2
      omega
    rw [Char.toLower_eq_of_not_isUpper hupper]

/-! ### Digits one after the other -/

theorem halves_cons (b : UInt8) (rest : List UInt8) :
    halves (b :: rest) = b.toNat / 16 :: b.toNat % 16 :: halves rest := rfl

theorem length_halves (bytes : List UInt8) : (halves bytes).length = 2 * bytes.length := by
  simp [halves, List.length_flatMap, Nat.mul_comm]

theorem lt_of_mem_halves {bytes : List UInt8} {n : Nat} (h : n ∈ halves bytes) : n < 16 := by
  obtain ⟨b, -, hb⟩ := List.mem_flatMap.mp h
  have hbyte : b.toNat < 256 := b.toNat_lt
  rcases List.mem_pair.mp hb with rfl | rfl
  · omega
  · omega

theorem encode_eq_map_halves (bytes : List UInt8) : encode bytes = (halves bytes).map digit := by
  induction bytes with
  | nil => rfl
  | cons b rest ih =>
      rw [encode, ih]
      rfl

/-- A byte has the digits of its halves. -/
theorem ofNat_eq_iff {high low : Nat} (hhigh : high < 16) (hlow : low < 16) {b : UInt8} :
    UInt8.ofNat (high * 16 + low) = b ↔ high = b.toNat / 16 ∧ low = b.toNat % 16 := by
  have hsum : high * 16 + low < 256 := by omega
  rw [← UInt8.toNat_inj, UInt8.toNat_ofNat_of_lt' hsum]
  omega

/-- **What is read are the bytes whose halves are the values of the digits.** -/
theorem decode_eq_some_iff {cs : List Char} : ∀ {bytes : List UInt8},
    decode cs = some bytes ↔ cs.map digit? = (halves bytes).map some := by
  fun_induction decode cs with
  | case1 =>
      intro bytes
      cases bytes with
      | nil => simp [halves]
      | cons b rest => simp [halves]
  | case2 c =>
      intro bytes
      cases bytes with
      | nil => simp [halves]
      | cons b rest => simp [halves]
  | case3 a b rest high low bytes' hrest hlow hhigh ih =>
      intro bytes
      cases bytes with
      | nil => simp [halves]
      | cons first more =>
          have hmore : rest.map digit? = (halves more).map some ↔ bytes' = more := by
            rw [← ih, hrest, Option.some.injEq]
          rw [Option.some.injEq, List.cons.injEq, ofNat_eq_iff (digit?_lt hhigh) (digit?_lt hlow),
            ← hmore, halves_cons]
          simp [hhigh, hlow, and_assoc]
  | case4 a b rest hnone ih =>
      intro bytes
      refine iff_of_false (by simp) fun h => ?_
      cases bytes with
      | nil => simp [halves] at h
      | cons first more =>
          simp only [halves_cons, List.map_cons, List.cons.injEq] at h
          exact hnone _ _ _ h.1 h.2.1 (ih.mpr h.2.2)

theorem map_toLower_of_map_digit? : ∀ {cs : List Char} {ns : List Nat},
    cs.map digit? = ns.map some → cs.map Char.toLower = ns.map digit := by
  intro cs
  induction cs with
  | nil =>
      intro ns h
      cases ns with
      | nil => rfl
      | cons n ns => cases h
  | cons c rest ih =>
      intro ns h
      cases ns with
      | nil => cases h
      | cons n ns =>
          obtain ⟨hc, hrest⟩ := List.cons.inj h
          rw [List.map_cons, List.map_cons, ih hrest, digit_of_digit? hc]

theorem map_digit?_of_map_toLower {cs ds : List Char}
    (h : cs.map Char.toLower = ds.map Char.toLower) : cs.map digit? = ds.map digit? := by
  have hvalues : digit? ∘ Char.toLower = digit? := funext digit?_toLower
  rw [← hvalues, ← List.map_map, h, List.map_map]

/-- Two digits for each byte can be read. -/
theorem exists_decode : ∀ {n : Nat} {cs : List Char}, cs.length = 2 * n →
    (∀ c ∈ cs, isDigit c = true) → ∃ bytes, decode cs = some bytes ∧ bytes.length = n := by
  intro n
  induction n with
  | zero =>
      intro cs hlen _
      obtain rfl := List.length_eq_zero_iff.mp hlen
      exact ⟨[], rfl, rfl⟩
  | succ n ih =>
      intro cs hlen hdigits
      match cs, hlen with
      | a :: b :: rest, hlen =>
        obtain ⟨bytes, hbytes, hlength⟩ := @ih rest (by simp at hlen; omega)
          fun c hc => hdigits c (by simp [hc])
        obtain ⟨high, hhigh⟩ := Option.isSome_iff_exists.mp (hdigits a (by simp))
        obtain ⟨low, hlow⟩ := Option.isSome_iff_exists.mp (hdigits b (by simp))
        refine ⟨UInt8.ofNat (high * 16 + low) :: bytes, ?_, by simp [hlength]⟩
        simp only [decode, hhigh, hlow, hbytes]

end Hex

/-! ### Texts that spell digests -/

/-- Sixty-four hexadecimal digits of either case. -/
def IsDigestText (text : String) : Prop :=
  text.toList.length = 64 ∧
    ∀ c ∈ text.toList, ('0' ≤ c ∧ c ≤ '9') ∨ ('a' ≤ c ∧ c ≤ 'f') ∨ ('A' ≤ c ∧ c ≤ 'F')

instance (text : String) : Decidable (IsDigestText text) :=
  inferInstanceAs (Decidable (_ ∧ _))

/-- Sixty-four hexadecimal digits in lower case. -/
def IsLowerDigestText (text : String) : Prop :=
  text.toList.length = 64 ∧ ∀ c ∈ text.toList, ('0' ≤ c ∧ c ≤ '9') ∨ ('a' ≤ c ∧ c ≤ 'f')

/-- The digits of a text have the halves of the bytes of a digest as their values. -/
def Spells (text : String) (d : Digest) : Prop :=
  text.toList.map Hex.digit? = (Hex.halves d.bytes).map some

/-- Two texts are the same but for the case of letters. -/
def SameButCase (s t : String) : Prop :=
  s.toList.map Char.toLower = t.toList.map Char.toLower

instance (s t : String) : Decidable (SameButCase s t) :=
  inferInstanceAs (Decidable (_ = _))

variable {text other : String} {d : Digest}

/-- Digests are written in lower case. -/
theorem Digest.isLowerDigestText_hex (d : Digest) : IsLowerDigestText d.hex := by
  rw [IsLowerDigestText, toList_hex, Hex.encode_eq_map_halves]
  refine ⟨by rw [List.length_map, Hex.length_halves, d.length_eq], fun c hc => ?_⟩
  obtain ⟨n, hn, rfl⟩ := List.mem_map.mp hc
  have hdigits : ∀ n < 16, ('0' ≤ Hex.digit n ∧ Hex.digit n ≤ '9') ∨
      ('a' ≤ Hex.digit n ∧ Hex.digit n ≤ 'f') := by decide
  exact hdigits n (Hex.lt_of_mem_halves hn)

/-- **A text is read as the digest that it spells.** -/
theorem Digest.ofHex?_eq_some_iff : ofHex? text = some d ↔ Spells text d := by
  rw [Spells, ← Hex.decode_eq_some_iff, ofHex?, Option.bind_eq_some_iff]
  constructor
  · rintro ⟨bytes, hbytes, hdigest⟩
    rw [ofBytes?] at hdigest
    split at hdigest
    next hlength => rw [← Option.some.inj hdigest, hbytes]
    next => cases hdigest
  · intro h
    exact ⟨d.bytes, h, by rw [ofBytes?, dif_pos d.length_eq]⟩

/-- **A text spells the digest that is written as its lower-case form.** -/
theorem spells_iff_lower :
    Spells text d ↔ d.hex = String.ofList (text.toList.map Char.toLower) := by
  rw [← String.toList_inj, Digest.toList_hex, String.toList_ofList, Hex.encode_eq_map_halves]
  constructor
  · intro h
    exact (Hex.map_toLower_of_map_digit? h).symm
  · intro h
    have hwritten : d.hex.toList.map Hex.digit? = (Hex.halves d.bytes).map some := by
      rw [← Hex.decode_eq_some_iff, Digest.toList_hex, Hex.decode_encode]
    rw [Spells, ← hwritten, Digest.toList_hex, Hex.encode_eq_map_halves]
    refine Hex.map_digit?_of_map_toLower ?_
    rw [h, List.map_map]
    exact List.map_congr_left fun c _ => (Char.toLower_toLower_eq_toLower c).symm

/-- **The texts that spell a digest are sixty-four digits.** -/
theorem exists_spells_iff : (∃ d, Spells text d) ↔ IsDigestText text := by
  simp only [IsDigestText, ← isHexDigit_iff]
  constructor
  · rintro ⟨d, h⟩
    constructor
    · have hlength := congrArg List.length h
      rwa [List.length_map, List.length_map, Hex.length_halves, d.length_eq] at hlength
    · intro c hc
      have hvalue : Hex.digit? c ∈ (Hex.halves d.bytes).map some := h ▸ List.mem_map_of_mem hc
      obtain ⟨n, -, hn⟩ := List.mem_map.mp hvalue
      rw [Hex.isDigit, ← hn]
      rfl
  · rintro ⟨hlength, hdigits⟩
    obtain ⟨bytes, hbytes, hcount⟩ := Hex.exists_decode (n := 32) hlength hdigits
    exact ⟨⟨bytes, hcount⟩, Hex.decode_eq_some_iff.mp hbytes⟩

/-- Texts that are the same but for the case of letters spell the same. -/
theorem SameButCase.spells_iff (h : SameButCase text other) : Spells text d ↔ Spells other d := by
  rw [Spells, Spells, Hex.map_digit?_of_map_toLower h]

end Rewards
