/-
Sums of rewards, payee by payee.

Adding a reward to totals gives its payee an entry and takes nobody else's away.  So the
payees of a sum are those who occur in one of the tables, however often, and a table
without rewards adds nothing.
-/
import Mathlib
import Rewards.Proofs.Dictionary
import Rewards.Proofs.Outcome
import Rewards.Proofs.Query.Groups
import Rewards.Table.Result

namespace Rewards

namespace ResultTable

/-- A payee occurs among the rewards of a table. -/
def Pays (table : ResultTable) (payee : String) : Prop :=
  ∃ rewards, table.rewards = .ok rewards ∧ payee ∈ rewards.map (·.1)

/-- Reading a table of totals gives back its entries. -/
theorem rewards_ofRewards (totals : Dictionary Float) :
    (ofRewards totals).rewards = .ok totals.entries :=
  rewards_of_batch rfl rfl

end ResultTable

/-! ### Payees of totals -/

theorem mem_keys_addReward {totals : Dictionary Float} {reward : String × Float} {payee : String} :
    payee ∈ (addReward totals reward).keys ↔ payee = reward.1 ∨ payee ∈ totals.keys :=
  Dictionary.mem_keys_insert

theorem mem_keys_foldl_addReward {payee : String} : ∀ {rewards : List (String × Float)}
    {totals : Dictionary Float},
    payee ∈ (rewards.foldl addReward totals).keys ↔
      payee ∈ rewards.map (·.1) ∨ payee ∈ totals.keys := by
  intro rewards
  induction rewards with
  | nil => simp
  | cons reward rest ih =>
      intro totals
      rw [List.foldl_cons, ih, mem_keys_addReward, List.map_cons, List.mem_cons]
      tauto

/-! ### Adding tables up -/

/-- Totals with the rewards of one more table. -/
def addTable (totals : Dictionary Float) (table : ResultTable) : Outcome (Dictionary Float) := do
  return (← table.rewards).foldl addReward totals

theorem sumByPayee_eq (tables : List ResultTable) :
    sumByPayee tables = tables.foldlM addTable .empty :=
  rfl

theorem addTable_noRewards (totals : Dictionary Float) :
    addTable totals .noRewards = .ok totals :=
  rfl

/-- One table adds the payees who occur in it. -/
theorem mem_keys_of_addTable {totals result : Dictionary Float} {table : ResultTable}
    (h : addTable totals table = .ok result) {payee : String} :
    payee ∈ result.keys ↔ payee ∈ totals.keys ∨ table.Pays payee := by
  obtain ⟨rewards, hrewards, h⟩ := Outcome.bind_eq_ok.mp h
  cases h
  have hpays : table.Pays payee ↔ payee ∈ rewards.map (·.1) := by
    constructor
    · rintro ⟨other, hother, hmem⟩
      obtain rfl := Except.ok.inj (hrewards.symm.trans hother)
      exact hmem
    · intro hmem
      exact ⟨rewards, hrewards, hmem⟩
  rw [mem_keys_foldl_addReward, hpays]
  exact or_comm

/-- **The payees of a sum are those who occur in one of its tables.** -/
theorem mem_keys_of_foldlM_addTable {payee : String} : ∀ {tables : List ResultTable}
    {totals result : Dictionary Float}, tables.foldlM addTable totals = .ok result →
      (payee ∈ result.keys ↔ payee ∈ totals.keys ∨ ∃ table ∈ tables, table.Pays payee) := by
  intro tables
  induction tables with
  | nil =>
      intro totals result h
      cases h
      simp
  | cons table rest ih =>
      intro totals result h
      rw [List.foldlM_cons] at h
      obtain ⟨mid, hmid, h⟩ := Outcome.bind_eq_ok.mp h
      rw [ih h, mem_keys_of_addTable hmid, List.exists_mem_cons_iff, or_assoc]

/-- **Tables without rewards can be left out of a sum.** -/
theorem foldlM_addTable_filter {α : Type} {p : α → Bool} {table : α → ResultTable} :
    ∀ {l : List α} {totals : Dictionary Float},
      (∀ a ∈ l, p a = false → table a = .noRewards) →
        ((l.filter p).map table).foldlM addTable totals = (l.map table).foldlM addTable totals := by
  intro l
  induction l with
  | nil => intro totals _; rfl
  | cons a rest ih =>
      intro totals h
      have hrest : ∀ b ∈ rest, p b = false → table b = .noRewards :=
        fun b hb => h b (List.mem_cons_of_mem _ hb)
      cases hp : p a with
      | true =>
          rw [List.filter_cons_of_pos hp, List.map_cons, List.map_cons, List.foldlM_cons,
            List.foldlM_cons]
          exact bind_congr fun mid => ih hrest
      | false =>
          rw [List.filter_cons_of_neg (by simp [hp]), List.map_cons, List.foldlM_cons,
            h a List.mem_cons_self hp, addTable_noRewards, Outcome.ok_bind]
          exact ih hrest

end Rewards
