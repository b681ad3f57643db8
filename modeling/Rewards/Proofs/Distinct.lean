/-
Each element once.

Keeping the first of equal elements loses none and leaves each of them once.  An element at
the end stays if it is a new one, so a list that grows at its end keeps what it had, in order.
-/
import Mathlib
import Rewards.Dictionary

namespace Rewards

variable {α : Type} [DecidableEq α]

theorem mem_distinct {l : List α} {a : α} :
    a ∈ distinct l ↔ a ∈ l := by
  induction l with
  | nil => rfl
  | cons b rest ih =>
      rw [distinct, List.mem_cons, List.mem_cons, List.mem_filter, ih]
      by_cases hab : a = b
      · simp [hab]
      · simp [hab]

theorem nodup_distinct (l : List α) : (distinct l).Nodup := by
  induction l with
  | nil => exact List.nodup_nil
  | cons a rest ih =>
      rw [distinct, List.nodup_cons]
      exact ⟨by simp, ih.filter _⟩

/-- Keeping each element once leaves as many as there are different ones. -/
theorem length_distinct (l : List α) :
    (distinct l).length = l.toFinset.card := by
  rw [← List.toFinset_card_of_nodup (nodup_distinct l)]
  congr 1
  ext a
  rw [List.mem_toFinset, List.mem_toFinset, mem_distinct]

theorem distinct_append_singleton (l : List α) (a : α) :
    distinct (l ++ [a]) = distinct l ++ if a ∈ l then [] else [a] := by
  induction l with
  | nil => rfl
  | cons b rest ih =>
      rw [List.cons_append, distinct, ih, distinct, List.filter_append, List.cons_append]
      by_cases hab : a = b
      · simp [hab]
      · by_cases ha : a ∈ rest
        · simp [ha]
        · simp [ha, hab]

end Rewards
