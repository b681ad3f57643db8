/-
Payments: what a payee is paid, and the totals of a list of payments.

The total is the sum of the amounts from the left, started from negative zero, which
is the neutral element of addition; so no payments at all make a total of negative
zero.  Payees are counted once each.
-/
import Rewards.Block
import Rewards.Dictionary

namespace Rewards

/-- The reward of one payee for one program and cycle. -/
structure PaymentRecord where
  payee : String
  /-- The reward in units of the token. -/
  amount : Float
  token : String
  programId : String
  /-- The end of the cycle that is paid. -/
  paymentCycle : Block
  /-- The first block at which the payment can be claimed. -/
  validFrom : Block
  /-- The last block at which the payment can be claimed. -/
  validTo : Block
deriving DecidableEq

/-- The totals of a list of payments. -/
structure PaymentSummary where
  totalReward : Float
  uniquePayees : Nat
deriving DecidableEq

/-- The totals of a list of payments. -/
def PaymentSummary.ofPayments (payments : List PaymentRecord) : PaymentSummary :=
  ⟨payments.foldl (fun total p => total + p.amount) (-0.0),
    (distinct (payments.map (·.payee))).length⟩

/-- A payment as a JSON object. -/
def PaymentRecord.toJson (p : PaymentRecord) : Json :=
  .object
    [("payee", .text p.payee),
     ("amount", .real p.amount),
     ("token", .text p.token),
     ("reward_program_id", .text p.programId),
     ("payment_cycle", .natural p.paymentCycle.toNat),
     ("valid_from", .natural p.validFrom.toNat),
     ("valid_to", .natural p.validTo.toNat)]

/-- Totals as a JSON object. -/
def PaymentSummary.toJson (s : PaymentSummary) : Json :=
  .object [("total_reward", .real s.totalReward), ("unique_payee", .natural s.uniquePayees)]

open Shape

variable {m : Type → Type} [Monad m] {ν : Type} [Source m ν]

/-- A payment read from its fields. -/
def PaymentRecord.read : ν → m PaymentRecord :=
  record "PaymentRecord" .lenient
    (mk <$> Fields.required "payee" Source.text
      <*> Fields.required "amount" Source.real
      <*> Fields.required "token" Source.text
      <*> Fields.required "reward_program_id" Source.text
      <*> Fields.required "payment_cycle" word
      <*> Fields.required "valid_from" word
      <*> Fields.required "valid_to" word)

/-- Totals read from their fields. -/
def PaymentSummary.read : ν → m PaymentSummary :=
  record "PaymentSummary" .lenient
    (mk <$> Fields.required "total_reward" Source.real
      <*> Fields.required "unique_payee" count)

end Rewards
