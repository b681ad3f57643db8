/-
Stable sorting.

Sorting puts a list in order and keeps what ties as it was given.  The two together leave no
choice: lists that ascend are the same if the same elements tie in them, in the same order
(`eq_of_ties`).
-/
import Mathlib

namespace Rewards

variable {α : Type} {le : α → α → Bool}

/--
**Sorting leaves elements that tie as they were given.**  They ascend already, so they are
a sublist of what is sorted, and a sublist as long as all that tie there.
-/
theorem filter_mergeSort (htrans : ∀ a b c, le a b = true → le b c = true → le a c = true)
    (htotal : ∀ a b, (le a b || le b a) = true) {tied : α → Bool}
    (htied : ∀ a b, tied a = true → tied b = true → le a b = true) (l : List α) :
    (l.mergeSort le).filter tied = l.filter tied := by
  have hascending : (l.filter tied).Pairwise (fun a b => le a b = true) :=
    List.pairwise_of_forall_mem_list fun a ha b hb =>
      htied a b (List.of_mem_filter ha) (List.of_mem_filter hb)
  have hsublist : (l.filter tied).Sublist (l.mergeSort le) :=
    List.sublist_mergeSort htrans htotal hascending List.filter_sublist
  have hlength : (l.filter tied).length = ((l.mergeSort le).filter tied).length :=
    ((List.mergeSort_perm l le).symm.filter _).length_eq
  have hkept : (l.filter tied).Sublist ((l.mergeSort le).filter tied) := by
    rw [← List.filter_eq_self.mpr fun a (ha : a ∈ l.filter tied) => List.of_mem_filter ha]
    exact hsublist.filter _
  exact (hkept.eq_of_length hlength).symm

/-- No element of a list that ascends is before the first one. -/
theorem le_of_mem_ascending (hrefl : ∀ a, le a a = true) {a b : α} {l : List α}
    (h : (a :: l).Pairwise (fun a b => le a b = true)) (hb : b ∈ a :: l) : le a b = true := by
  rcases List.mem_cons.mp hb with rfl | hb
  · exact hrefl b
  · exact List.rel_of_pairwise_cons h hb

/--
**Lists that ascend are the same if the same elements tie in them, in the same order.**
Neither of the two first elements is before the other, so they tie, and each is the first
of its list that does.
-/
theorem eq_of_ties (le tie : α → α → Bool) (hrefl : ∀ a, le a a = true)
    (hself : ∀ a, tie a a = true)
    (htie : ∀ a b, le a b = true → le b a = true → tie a b = true) : ∀ {l m : List α},
    l.Pairwise (fun a b => le a b = true) → m.Pairwise (fun a b => le a b = true) →
    (∀ r, l.filter (tie r) = m.filter (tie r)) → l = m := by
  have hmem : ∀ {r : α} {l m : List α}, l.filter (tie r) = m.filter (tie r) → r ∈ l → r ∈ m := by
    intro r l m h hr
    have hr : r ∈ l.filter (tie r) := List.mem_filter.mpr ⟨hr, hself r⟩
    rw [h] at hr
    exact List.mem_of_mem_filter hr
  intro l
  induction l with
  | nil =>
      intro m _ _ hties
      rcases m with _ | ⟨b, m⟩
      · rfl
      · cases hmem (hties b).symm List.mem_cons_self
  | cons a l ih =>
      intro m hl hm hties
      rcases m with _ | ⟨b, m⟩
      · cases hmem (hties a) List.mem_cons_self
      · have hab : tie a b = true := htie a b
          (le_of_mem_ascending hrefl hl (hmem (hties b).symm List.mem_cons_self))
          (le_of_mem_ascending hrefl hm (hmem (hties a) List.mem_cons_self))
        have hfirst := hties a
        rw [List.filter_cons_of_pos (hself a), List.filter_cons_of_pos hab] at hfirst
        obtain ⟨rfl, -⟩ := List.cons.inj hfirst
        have hrest : ∀ r, l.filter (tie r) = m.filter (tie r) := by
          intro r
          have hr := hties r
          rw [List.filter_cons, List.filter_cons] at hr
          split_ifs at hr
          · exact (List.cons.inj hr).2
          · exact hr
        rw [ih hl.of_cons hm.of_cons hrest]

end Rewards
