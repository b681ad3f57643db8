/-
Totals, payee by payee.

A sum goes through tables, batches and rows in order, but a reward only touches the total of
its payee (`get?_foldl_addReward`).  So the total of a payee is what his own amounts add up
to in their order, whoever else is paid in between, and where one table or batch ends and the
next begins makes no difference: nothing about the addition of doubles is needed for it.
-/
import Mathlib
import Rewards.Proofs.Table.Reading
import Rewards.Proofs.Table.Sum

namespace Rewards

/-! ### One payee among others -/

/-- The amounts of a payee among some rewards, in their order. -/
def amountsOf (payee : String) (rewards : List (String × Float)) : List Float :=
  (rewards.filter fun reward => reward.1 = payee).map (·.2)

theorem amountsOf_ne_nil_iff {payee : String} {rewards : List (String × Float)} :
    amountsOf payee rewards ≠ [] ↔ payee ∈ rewards.map (·.1) := by
  simp [amountsOf]

/-- **A reward changes the total of its payee**, and nobody else's. -/
theorem get?_addReward (totals : Dictionary Float) (reward : String × Float) (payee : String) :
    (addReward totals reward).get? payee =
      if reward.1 = payee then some ((totals.get? payee).getD 0.0 + reward.2)
      else totals.get? payee := by
  rw [addReward, Dictionary.get?_insert]
  by_cases h : reward.1 = payee
  · rw [if_pos h, if_pos h, h]
  · rw [if_neg h, if_neg h]

/-- After some rewards the total of a payee is the one before with his amounts added in order. -/
theorem get?_foldl_addReward {payee : String} : ∀ {rewards : List (String × Float)}
    {totals : Dictionary Float},
    (rewards.foldl addReward totals).get? payee =
      (amountsOf payee rewards).foldl (fun total x => some (total.getD 0.0 + x))
        (totals.get? payee) := by
  intro rewards
  induction rewards with
  | nil => intro totals; rfl
  | cons reward rest ih =>
      intro totals
      rw [List.foldl_cons, ih, get?_addReward]
      by_cases h : reward.1 = payee
      · rw [if_pos h, amountsOf, amountsOf, List.filter_cons_of_pos (by simpa using h)]
        rfl
      · rw [if_neg h, amountsOf, amountsOf, List.filter_cons_of_neg (by simpa using h)]

theorem foldl_some_getD (amounts : List Float) (x : Float) :
    amounts.foldl (fun total y => some (total.getD 0.0 + y)) (some x) =
      some (amounts.foldl (· + ·) x) := by
  induction amounts generalizing x with
  | nil => rfl
  | cons y rest ih => exact ih (x + y)

/-- **A payee gets what his amounts add up to from zero**, and only who has one gets anything. -/
theorem get?_foldl_addReward_empty (rewards : List (String × Float)) (payee : String) :
    (rewards.foldl addReward .empty).get? payee =
      if payee ∈ rewards.map (·.1) then some ((amountsOf payee rewards).foldl (· + ·) 0.0)
      else none := by
  rw [get?_foldl_addReward]
  show (amountsOf payee rewards).foldl _ none = _
  split_ifs with h
  · obtain ⟨x, rest, hcons⟩ := List.exists_cons_of_ne_nil (amountsOf_ne_nil_iff.mpr h)
    rw [hcons]
    exact foldl_some_getD rest (0.0 + x)
  · rw [not_not.mp (mt amountsOf_ne_nil_iff.mp h)]
    rfl

/-- Rewards with the same amounts for everybody have the same totals. -/
theorem foldl_addReward_congr {rewards others : List (String × Float)}
    (h : ∀ payee, amountsOf payee rewards = amountsOf payee others) :
    rewards.foldl addReward .empty = others.foldl addReward .empty :=
  Dictionary.eq_of_get?_eq fun payee => by
    rw [get?_foldl_addReward, get?_foldl_addReward, h payee]

/-! ### Tables one after the other -/

/-- The rewards of some tables, one table after the other. -/
def allRewards (tables : List ResultTable) : Outcome (List (String × Float)) := do
  return (← tables.mapM ResultTable.rewards).flatten

/-- A sum of tables is one of all their rewards. -/
theorem foldlM_addTable_eq : ∀ {tables : List ResultTable} {totals : Dictionary Float},
    tables.foldlM addTable totals =
      (do return (← allRewards tables).foldl addReward totals) := by
  intro tables
  induction tables with
  | nil => intro totals; rfl
  | cons table rest ih =>
      intro totals
      rw [List.foldlM_cons, addTable, allRewards, List.mapM_cons]
      cases table.rewards with
      | error problem => rfl
      | ok rewards =>
          show rest.foldlM addTable (rewards.foldl addReward totals) = _
          rw [ih, allRewards]
          cases rest.mapM ResultTable.rewards with
          | error problem => rfl
          | ok parts =>
              show Except.ok (parts.flatten.foldl addReward (rewards.foldl addReward totals)) =
                Except.ok ((rewards :: parts).flatten.foldl addReward totals)
              rw [List.flatten_cons, List.foldl_append]

theorem category_of_allRewards {tables : List ResultTable} {problem : Problem}
    (h : allRewards tables = .error problem) : problem.category = .execution := by
  rcases Outcome.bind_eq_error.mp h with h | ⟨_, -, h⟩
  · obtain ⟨-, table, -, -, -, htable⟩ := Outcome.mapM_eq_error.mp h
    exact ResultTable.category_of_rewards htable
  · cases h

/-- The rewards of the rows of some tables, by tables, batches and rows. -/
def rewardsOf (tables : List ResultTable) : List (String × Float) :=
  tables.flatMap fun table => table.rows.map ResultTable.rewardOf

theorem allRewards_eq_ok_iff {tables : List ResultTable} (hshape : ∀ t ∈ tables, t.IsWellFormed)
    {rewards : List (String × Float)} :
    allRewards tables = .ok rewards ↔
      (∀ t ∈ tables, t.ListsRewards) ∧ rewards = rewardsOf tables :=
  Outcome.flatten_mapM_eq_ok_iff fun t ht _ => ResultTable.rewards_eq_ok_iff (hshape t ht)

/-- Tables have a sum exactly if each of them lists rewards, and it is the sum over their rows. -/
theorem sumByPayee_eq_ok_iff {tables : List ResultTable} (hshape : ∀ t ∈ tables, t.IsWellFormed)
    {totals : Dictionary Float} :
    sumByPayee tables = .ok totals ↔
      (∀ t ∈ tables, t.ListsRewards) ∧ totals = (rewardsOf tables).foldl addReward .empty := by
  rw [sumByPayee_eq, foldlM_addTable_eq, Outcome.bind_eq_ok]
  constructor
  · rintro ⟨rewards, hrewards, h⟩
    obtain ⟨hlists, rfl⟩ := (allRewards_eq_ok_iff hshape).mp hrewards
    exact ⟨hlists, (Except.ok.inj h).symm⟩
  · rintro ⟨hlists, rfl⟩
    exact ⟨_, (allRewards_eq_ok_iff hshape).mpr ⟨hlists, rfl⟩, rfl⟩

theorem category_of_sumByPayee {tables : List ResultTable} {problem : Problem}
    (h : sumByPayee tables = .error problem) : problem.category = .execution := by
  rw [sumByPayee_eq, foldlM_addTable_eq] at h
  rcases Outcome.bind_eq_error.mp h with h | ⟨_, -, h⟩
  · exact category_of_allRewards h
  · cases h

/-- **What a payee gets in all follows from his own amounts in their order.**

Well-formed tables that list rewards have totals for exactly the payees who occur in a row, and
the total of a payee is what his amounts add up to one after the other, from zero, by tables,
batches and rows.  So tables with the same amounts in the same order for each payee have the
same totals to the bit, however their rows are spread over tables and batches and whoever stands
in between.  If one of the tables does not list rewards, because it lacks a column or has a null
or lists in one, there are no totals at all but a problem of execution. -/
theorem totals_follow_from_own_amounts {tables : List ResultTable}
    (hshape : ∀ t ∈ tables, t.IsWellFormed) :
    ((∀ t ∈ tables, t.ListsRewards) →
      ∃ totals, sumByPayee tables = .ok totals ∧
        (∀ payee, totals.get? payee =
          if payee ∈ (rewardsOf tables).map (·.1) then
            some ((amountsOf payee (rewardsOf tables)).foldl (· + ·) 0.0)
          else none) ∧
        ∀ others : List ResultTable, (∀ t ∈ others, t.IsWellFormed ∧ t.ListsRewards) →
          (∀ payee, amountsOf payee (rewardsOf others) = amountsOf payee (rewardsOf tables)) →
            sumByPayee others = .ok totals) ∧
    ((∃ t ∈ tables, ¬ t.ListsRewards) →
      ∃ problem, sumByPayee tables = .error problem ∧ problem.category = .execution) := by
  refine ⟨fun hlists => ?_, fun ⟨t, ht, hnot⟩ => ?_⟩
  · refine ⟨_, (sumByPayee_eq_ok_iff hshape).mpr ⟨hlists, rfl⟩, get?_foldl_addReward_empty _, ?_⟩
    intro others hothers hsame
    rw [← foldl_addReward_congr hsame]
    exact (sumByPayee_eq_ok_iff fun t ht => (hothers t ht).1).mpr
      ⟨fun t ht => (hothers t ht).2, rfl⟩
  · cases hsum : sumByPayee tables with
    | ok totals => exact absurd (((sumByPayee_eq_ok_iff hshape).mp hsum).1 t ht) hnot
    | error problem => exact ⟨problem, rfl, category_of_sumByPayee hsum⟩

/-- Two payees in three batches, one of them empty, against the same amounts in three tables. -/
theorem totals_of_two_splits :
    let tables : List ResultTable :=
      [⟨ResultTable.rewardFields,
        [⟨[[.text "0xa"], [.double 0.1]]⟩,
         ⟨[[], []]⟩,
         ⟨[[.text "0xb", .text "0xa"], [.double 1.5, .double 0.2]]⟩]⟩]
    let others : List ResultTable :=
      [⟨[("amount", .int32), ("payee", .largeUtf8)], []⟩,
       ⟨[("amount", .float64), ("payee", .utf8View)],
        [⟨[[.double 0.1, .double 0.2], [.text "0xa", .text "0xa"]]⟩]⟩,
       ⟨[("payee", .utf8), ("block", .uint64), ("amount", .utf8)],
        [⟨[[.text "0xb"], [.integer 7], [.text "1.5"]]⟩]⟩]
    (∃ totals, sumByPayee tables = .ok totals ∧ sumByPayee others = .ok totals ∧
      totals.get? "0xa" = some (0.0 + 0.1 + 0.2)) ∧
    ∃ problem, sumByPayee [⟨[("payee", .utf8), ("amount", .int64)],
      [⟨[[.text "0xa", .text "0xb"], [.integer 1, .null]]⟩]⟩] = .error problem ∧
        problem.category = .execution := by
  intro tables others
  have hrewards : rewardsOf tables = [("0xa", 0.1), ("0xb", 1.5), ("0xa", 0.2)] := by decide +kernel
  have hothers : rewardsOf others = [("0xa", 0.1), ("0xa", 0.2), ("0xb", 1.5)] := by decide +kernel
  constructor
  · obtain ⟨totals, hsum, hget, hsame⟩ :=
      (totals_follow_from_own_amounts (show ∀ t ∈ tables, t.IsWellFormed by decide +kernel)).1
        (by decide +kernel)
    refine ⟨totals, hsum, hsame others (by decide +kernel) fun payee => ?_, ?_⟩
    · rw [hrewards, hothers]
      by_cases ha : "0xa" = payee
      · subst ha
        rfl
      · simp [amountsOf, List.filter_cons, ha]
    · rw [hget, hrewards]
      rfl
  · exact (totals_follow_from_own_amounts (by decide +kernel)).2 (by decide +kernel)

end Rewards
