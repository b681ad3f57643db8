/-
What is hashed for a payment.

A payment can be hashed exactly if its amount is finite: that is the only number in it
that may be unfit, as the blocks are words.  What is hashed is then a mark and the
canonical text of the payment, so two payments are hashed as the same bytes exactly if
they have the same canonical text.
-/
import Rewards.Payment.Tree
import Rewards.Proofs.Outcome
import Rewards.Proofs.Typed
import Rewards.Proofs.Utf8

namespace Rewards

namespace PaymentTree

variable {p q : PaymentRecord}

/-- The bytes that are hashed for a payment, if its amount is finite. -/
def leafString (p : PaymentRecord) : List UInt8 :=
  leafMark :: Identity.utf8 p.toJson.canonical

/-- The numbers of a payment can be written if its amount is finite. -/
theorem isWritable_toJson (p : PaymentRecord) : p.toJson.isWritable = p.amount.isFinite := by
  show (true && (p.amount.isFinite && (true && (true && (Word.holds p.paymentCycle.toNat &&
    (Word.holds p.validFrom.toNat && (Word.holds p.validTo.toNat && true))))))) = p.amount.isFinite
  simp only [Word.holds_toNat, Bool.and_true, Bool.true_and]

/-- The amount is the float that is found if it is not finite. -/
theorem nonFinite?_toJson (h : p.amount.isFinite = false) :
    (Typed.ofJson p.toJson).nonFinite? = some p.amount := by
  show Typed.firstOf none (Typed.firstOf
    (if p.amount.isFinite = true then none else some p.amount) _) = some p.amount
  rw [h]
  rfl

theorem leafBytes_of_finite (h : p.amount.isFinite = true) : leafBytes p = .ok (leafString p) := by
  unfold leafBytes
  rw [Typed.canonical_ofJson (by rw [isWritable_toJson, h])]
  rfl

theorem leafBytes_of_nonFinite (h : p.amount.isFinite = false) :
    ∃ problem, leafBytes p = .error problem := by
  unfold leafBytes
  rw [Typed.canonical_of_nonFinite (nonFinite?_toJson h)]
  exact ⟨_, rfl⟩

variable (digest : List UInt8 → Digest)

/-- **A payment has a leaf if its amount is finite.** -/
theorem leaf_of_finite (h : p.amount.isFinite = true) :
    leaf digest p = .ok (digest (leafString p)) := by
  unfold leaf
  rw [leafBytes_of_finite h]
  rfl

/-- And only then. -/
theorem finite_of_leaf {d : Digest} (h : leaf digest p = .ok d) : p.amount.isFinite = true := by
  by_contra hfinite
  obtain ⟨problem, herror⟩ := leafBytes_of_nonFinite (p := p) (by simpa using hfinite)
  unfold leaf at h
  rw [herror] at h
  cases h

/-- Payments that are hashed as the same bytes have the same canonical text. -/
theorem canonical_of_leafString (h : leafString p = leafString q) :
    p.toJson.canonical = q.toJson.canonical :=
  Identity.utf8_injective (List.cons.inj h).2

end PaymentTree

end Rewards
