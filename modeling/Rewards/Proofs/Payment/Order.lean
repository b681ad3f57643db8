/-
The order in which payments are handed off.

Payments are compared by one field after the other, so the comparison inherits from
those of the fields that it is total and transitive.  Sorting by it then gives the same
payments, ascending.
-/
import Mathlib
import Rewards.Payment.Tree

namespace Rewards.PaymentTree

/-- The order compares by one key after the other. -/
theorem order_eq_compareLex :
    order = compareLex (compareOn PaymentRecord.payee)
      (compareLex (compareOn PaymentRecord.token)
        (compareLex (compareOn PaymentRecord.programId)
          (compareLex (compareOn PaymentRecord.paymentCycle)
            (compareOn fun p => Decimal.rank p.amount)))) :=
  rfl

instance : Std.TransCmp order := by
  rw [order_eq_compareLex]
  infer_instance

theorem order_isLE_trans (a b c : PaymentRecord) (hab : (order a b).isLE = true)
    (hbc : (order b c).isLE = true) : (order a c).isLE = true :=
  Std.TransCmp.isLE_trans hab hbc

theorem order_isLE_total (a b : PaymentRecord) :
    ((order a b).isLE || (order b a).isLE) = true := by
  have hswap : order a b = (order b a).swap := Std.OrientedCmp.eq_swap
  rw [hswap]
  cases order b a <;> rfl

/-- Sorting keeps every payment, as often as it is there. -/
theorem inOrder_perm (payments : List PaymentRecord) : (inOrder payments).Perm payments :=
  List.mergeSort_perm payments _

/-- **Sorted payments ascend.** -/
theorem pairwise_inOrder (payments : List PaymentRecord) :
    (inOrder payments).Pairwise (fun a b => (order a b).isLE = true) :=
  List.pairwise_mergeSort order_isLE_trans order_isLE_total payments

theorem order_of_payee_lt {a b : PaymentRecord} (h : a.payee < b.payee) : order a b = .lt := by
  rw [order, compareText, if_pos h]
  rfl

/-- Payments that ascend by payee are in order. -/
theorem inOrder_of_ascending {payments : List PaymentRecord}
    (h : payments.Pairwise fun p q => p.payee < q.payee) : inOrder payments = payments := by
  refine List.mergeSort_of_pairwise (h.imp fun {p q} hlt => ?_)
  rw [order_of_payee_lt hlt]
  rfl

end Rewards.PaymentTree
