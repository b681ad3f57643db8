/-
What verifies, in terms of what is spelled.

Checking a proof treats its arguments differently: the leaf and the siblings are read, while the
root is turned into lower case and compared with what the proof leads to.  A root that is no
digest at all is never refused as such; it just cannot be equal to a digest that is written out.
As a text in lower case is a written digest exactly if it spells that digest, this comes to the
same as reading the root too, and all arguments are on a par: each has to be sixty-four digits,
in whatever case, and only what they spell matters.
-/
import Rewards.Proofs.Digest.Spelling
import Rewards.Proofs.Payment.Verification

namespace Rewards.PaymentTree

variable (digest : List UInt8 → Digest)

/-! ### Texts and what they spell -/

/-- Texts are read one by one. -/
theorem mapM_ofHex?_eq_some_iff : ∀ {proof : List String} {path : List Digest},
    proof.mapM Digest.ofHex? = some path ↔ List.Forall₂ Spells proof path := by
  intro proof
  induction proof with
  | nil => intro path; simp [eq_comm]
  | cons text rest ih =>
      intro path
      rw [List.mapM_cons, List.forall₂_cons_left_iff]
      simp only [Option.bind_eq_bind, Option.bind_eq_some_iff, Digest.ofHex?_eq_some_iff, ih,
        Option.pure_def, Option.some.injEq]
      constructor
      · rintro ⟨sibling, hsibling, siblings, hsiblings, rfl⟩
        exact ⟨sibling, siblings, hsibling, hsiblings, rfl⟩
      · rintro ⟨sibling, siblings, hsibling, hsiblings, rfl⟩
        exact ⟨sibling, hsibling, siblings, hsiblings, rfl⟩

/-- **A proof verifies exactly if what it spells leads from the leaf to the root.** -/
theorem verify_iff_spells {leaf root : String} {proof : List String} :
    verify digest leaf proof root = true ↔
      ∃ node path top, Spells leaf node ∧ List.Forall₂ Spells proof path ∧ Spells root top ∧
        path.foldl (parent digest) node = top := by
  have hlower : ∀ top, Spells root top ↔ top.hex = String.ofList (root.toList.map Char.toLower) :=
    fun _ => spells_iff_lower
  simp only [verify_eq_true_iff, Digest.ofHex?_eq_some_iff, mapM_ofHex?_eq_some_iff, hlower]
  constructor
  · rintro ⟨node, path, hleaf, hproof, hroot⟩
    exact ⟨node, path, _, hleaf, hproof, hroot, rfl⟩
  · rintro ⟨node, path, _, hleaf, hproof, hroot, rfl⟩
    exact ⟨node, path, hleaf, hproof, hroot⟩

theorem isDigestText_of_forall₂ {proof : List String} {path : List Digest}
    (h : List.Forall₂ Spells proof path) : ∀ sibling ∈ proof, IsDigestText sibling := by
  induction h with
  | nil => simp
  | cons hsibling _ ih =>
      exact List.forall_mem_cons.mpr ⟨exists_spells_iff.mp ⟨_, hsibling⟩, ih⟩

/-- Proofs that are the same but for the case of letters spell the same digests. -/
theorem forall₂_spells_of_sameButCase {proof other : List String}
    (h : List.Forall₂ SameButCase proof other) : ∀ {path : List Digest},
      List.Forall₂ Spells proof path ↔ List.Forall₂ Spells other path := by
  induction h with
  | nil => intro path; rfl
  | cons hfirst _ ih =>
      intro path
      simp only [List.forall₂_cons_left_iff, hfirst.spells_iff, ih]

/-! ### What verifies -/

/--
**A proof verifies exactly if all arguments are well formed and match.**  The leaf, the siblings
and the root are sixty-four hexadecimal digits each, and joining the digest that the leaf spells
with those that the siblings spell, one after the other, gives the digest that the root spells.  So
the case of letters makes no difference in any argument, and nothing verifies if one argument is
malformed, wherever it stands.
-/
theorem verifies_exactly_spelled_digests :
    (∀ leaf proof root, verify digest leaf proof root = true ↔
      IsDigestText leaf ∧ (∀ sibling ∈ proof, IsDigestText sibling) ∧ IsDigestText root ∧
        ∃ node path top, Spells leaf node ∧ List.Forall₂ Spells proof path ∧ Spells root top ∧
          path.foldl (parent digest) node = top) ∧
    (∀ leaf leaf' proof proof' root root', SameButCase leaf leaf' →
      List.Forall₂ SameButCase proof proof' → SameButCase root root' →
        verify digest leaf proof root = verify digest leaf' proof' root') ∧
    (∀ leaf proof root, (¬ IsDigestText leaf ∨ (∃ sibling ∈ proof, ¬ IsDigestText sibling) ∨
      ¬ IsDigestText root) → verify digest leaf proof root = false) := by
  have hwellFormed : ∀ {leaf proof root}, verify digest leaf proof root = true →
      IsDigestText leaf ∧ (∀ sibling ∈ proof, IsDigestText sibling) ∧ IsDigestText root := by
    intro leaf proof root h
    obtain ⟨node, path, top, hleaf, hproof, hroot, -⟩ := (verify_iff_spells digest).mp h
    exact ⟨exists_spells_iff.mp ⟨node, hleaf⟩, isDigestText_of_forall₂ hproof,
      exists_spells_iff.mp ⟨top, hroot⟩⟩
  refine ⟨fun leaf proof root => ⟨fun h => ?_, fun h => ?_⟩, ?_, fun leaf proof root hbad => ?_⟩
  · obtain ⟨hleaf, hproof, hroot⟩ := hwellFormed h
    exact ⟨hleaf, hproof, hroot, (verify_iff_spells digest).mp h⟩
  · exact (verify_iff_spells digest).mpr h.2.2.2
  · intro leaf leaf' proof proof' root root' hleaf hproof hroot
    rw [Bool.eq_iff_iff, verify_iff_spells, verify_iff_spells]
    simp only [hleaf.spells_iff, forall₂_spells_of_sameButCase hproof, hroot.spells_iff]
  · rw [Bool.eq_false_iff]
    intro h
    obtain ⟨hleaf, hproof, hroot⟩ := hwellFormed h
    rcases hbad with hbad | ⟨sibling, hmem, hbad⟩ | hbad
    · exact hbad hleaf
    · exact hbad (hproof sibling hmem)
    · exact hbad hroot

/--
A leaf that is its own sibling verifies in either case; with a digit too many in the leaf, a letter
that is no digit in the sibling or a root of two digits it does not.
-/
theorem verifies_exactly_spelled_digests_capitals :
    let node : Digest := ⟨List.replicate 32 0xab, rfl⟩
    let capitals := String.ofList (node.hex.toList.map Char.toUpper)
    let root := (parent sha256 node node).hex
    (SameButCase node.hex capitals ∧ List.Forall₂ SameButCase [node.hex] [capitals] ∧
      SameButCase root root ∧ verify sha256 node.hex [node.hex] root = true ∧
      verify sha256 capitals [capitals] root = true) ∧
    (¬ IsDigestText (node.hex ++ "0") ∧ verify sha256 (node.hex ++ "0") [capitals] root = false) ∧
    (¬ IsDigestText "xyz" ∧ verify sha256 node.hex [capitals, "xyz"] root = false) ∧
    (¬ IsDigestText "00" ∧ verify sha256 node.hex [capitals] "00" = false) := by
  intro node capitals root
  obtain ⟨-, hcase, hmalformed⟩ := verifies_exactly_spelled_digests sha256
  have hcapitals : SameButCase node.hex capitals := by decide +kernel
  have hproof : List.Forall₂ SameButCase [node.hex] [capitals] := .cons hcapitals .nil
  have hpath : [node].foldl (parent sha256) node = parent sha256 node node := rfl
  have hlower : verify sha256 node.hex [node.hex] root = true := verify_hex sha256 hpath
  have hlong : ¬ IsDigestText (node.hex ++ "0") := by decide +kernel
  refine ⟨⟨hcapitals, hproof, rfl, hlower, ?_⟩, ⟨hlong, hmalformed _ _ _ (.inl hlong)⟩,
    ⟨by decide, hmalformed _ _ _ (.inr (.inl ⟨"xyz", by simp, by decide⟩))⟩,
    ⟨by decide, hmalformed _ _ _ (.inr (.inr (by decide)))⟩⟩
  rw [← hcase _ _ _ _ _ _ hcapitals hproof (rfl : SameButCase root root)]
  exact hlower

end Rewards.PaymentTree
