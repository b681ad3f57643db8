/-
Aggregates as a normal form.

Where every payee has one amount, the totals are the rewards themselves, put in the order of
their payees: each amount has been added to zero once, which does not change a number.  An
aggregate is the table of such totals, every payee once and in order.  So aggregating it again
has nothing to add up and nothing to move.
-/
import Mathlib
import Rewards.Proofs.Decimal.Sum
import Rewards.Proofs.Rule.Identity
import Rewards.Proofs.Table.Totals
import Rewards.Proofs.Utf8

namespace Rewards

/-! ### Rewards of different payees -/

/-- Two rewards of one payee, with amounts that are alike. -/
def SameReward (a b : String × Float) : Prop :=
  a.1 = b.1 ∧ Decimal.Alike a.2 b.2

/-- The entry that totals have for a payee after his first reward. -/
def firstTotal (reward : String × Float) : String × Float :=
  (reward.1, 0.0 + reward.2)

/-- First totals are the rewards that they come from. -/
theorem forall₂_sameReward_firstTotal (rewards : List (String × Float)) :
    List.Forall₂ SameReward (rewards.map firstTotal) rewards :=
  List.forall₂_map_left_iff.mpr
    (List.forall₂_same.mpr fun reward _ => ⟨rfl, Decimal.alike_zero_add reward.2⟩)

/-- Among rewards of different payees, each payee has the amount of his reward only. -/
theorem amountsOf_of_nodup {reward : String × Float} : ∀ {rewards : List (String × Float)},
    (rewards.map (·.1)).Nodup → reward ∈ rewards → amountsOf reward.1 rewards = [reward.2] := by
  intro rewards
  induction rewards with
  | nil =>
      intro _ hmem
      cases hmem
  | cons head rest ih =>
      intro hnodup hmem
      obtain ⟨hhead, hrest⟩ := List.nodup_cons.mp hnodup
      rcases List.mem_cons.mp hmem with rfl | hmem
      · have hnone : amountsOf reward.1 rest = [] :=
          not_not.mp (mt amountsOf_ne_nil_iff.mp hhead)
        rw [amountsOf, List.filter_cons_of_pos (by simp), List.map_cons]
        exact congrArg (reward.2 :: ·) hnone
      · have hne : head.1 ≠ reward.1 := fun heq =>
          hhead (List.mem_map.mpr ⟨reward, hmem, heq.symm⟩)
        rw [amountsOf, List.filter_cons_of_neg (by simpa using hne)]
        exact ih hrest hmem

/-- **The totals of rewards of different payees are these rewards in order.** -/
theorem entries_foldl_addReward {rewards sorted : List (String × Float)} (hperm : sorted.Perm rewards)
    (hascending : sorted.Pairwise fun a b => a.1 < b.1) :
    (rewards.foldl addReward .empty).entries = sorted.map firstTotal := by
  have hnodup : (rewards.map (·.1)).Nodup := by
    refine (hperm.map _).nodup_iff.mp (List.pairwise_map.mpr (hascending.imp ?_))
    exact fun hlt => ne_of_lt hlt
  let totals : Dictionary Float := ⟨sorted.map firstTotal, List.pairwise_map.mpr hascending⟩
  suffices h : rewards.foldl addReward .empty = totals by rw [h]
  refine Dictionary.eq_of_get?_eq fun payee => Option.ext fun total => ?_
  have hentry : totals.get? payee = some total ↔
      ∃ reward ∈ rewards, reward.1 = payee ∧ 0.0 + reward.2 = total := by
    rw [Dictionary.get?_eq_some_iff]
    show (payee, total) ∈ sorted.map firstTotal ↔ _
    simp only [List.mem_map, hperm.mem_iff, firstTotal, Prod.mk.injEq]
  rw [hentry, get?_foldl_addReward_empty]
  constructor
  · intro h
    split_ifs at h with hmem
    obtain ⟨reward, hreward, rfl⟩ := List.mem_map.mp hmem
    rw [amountsOf_of_nodup hnodup hreward] at h
    exact ⟨reward, hreward, rfl, Option.some.inj h⟩
  · rintro ⟨reward, hreward, rfl, rfl⟩
    rw [if_pos (List.mem_map_of_mem hreward), amountsOf_of_nodup hnodup hreward]
    rfl

/-! ### Aggregates -/

variable {σ : Type}

namespace Scheme

/-- The aggregate of some tables lists their totals. -/
theorem aggregate_eq_ok_iff {tables : List ResultTable} {result : ResultTable} :
    aggregate tables = .ok result ↔
      ∃ totals, sumByPayee tables = .ok totals ∧ result = .ofRewards totals := by
  rw [aggregate, Outcome.bind_eq_ok]
  constructor
  · rintro ⟨totals, hsum, h⟩
    exact ⟨totals, hsum, (Except.ok.inj h).symm⟩
  · rintro ⟨totals, hsum, rfl⟩
    exact ⟨totals, hsum, rfl⟩

/-- The aggregate of one table of different payees has its rewards in order. -/
theorem aggregate_of_ascending {table : ResultTable} {rewards sorted : List (String × Float)}
    (hrewards : table.rewards = .ok rewards) (hperm : sorted.Perm rewards)
    (hascending : sorted.Pairwise fun a b => a.1 < b.1) :
    ∃ result, aggregate [table] = .ok result ∧ result.rewards = .ok (sorted.map firstTotal) := by
  have hsum : sumByPayee [table] = .ok (rewards.foldl addReward .empty) := by
    rw [sumByPayee, List.foldlM_cons, hrewards]
    rfl
  refine ⟨_, aggregate_eq_ok_iff.mpr ⟨_, hsum, rfl⟩, ?_⟩
  rw [ResultTable.rewards_ofRewards, entries_foldl_addReward hperm hascending]

/-- The rule of a scheme aggregates as the scheme does, whatever state it is in. -/
theorem perform_aggregate (s : Scheme) (digest : List UInt8 → Digest) (tables : List ResultTable)
    (state : σ) :
    ((s.toRule digest : Rule σ).aggregate tables).perform state = (aggregate tables, state) :=
  rfl

end Scheme

/-- **An aggregate is a normal form**, whichever rule of this library makes it.

The aggregate of one table whose payees are all different has the rewards that are read from the
table, ordered by the bytes of their payees, and an aggregate that is aggregated again has the
rewards that it had.  The amounts are the same as numbers; the sign of a zero may be lost. -/
theorem aggregate_is_a_normal_form (rule : BuiltIn) (digest : List UInt8 → Digest) (state : σ) :
    (∀ table : ResultTable, table.ListsRewards →
      ∃ rewards, table.rewards = .ok rewards ∧
        ((rewards.map (·.1)).Nodup → ∃ result listed sorted,
          ((rule.toScheme.toRule digest : Rule σ).aggregate [table]).perform state =
            (.ok result, state) ∧
          result.rewards = .ok listed ∧ List.Forall₂ SameReward listed sorted ∧
          sorted.Perm rewards ∧
          sorted.Pairwise fun a b => Identity.utf8 a.1 < Identity.utf8 b.1)) ∧
    (∀ (partials : List ResultTable) (result : ResultTable) (after : σ),
      ((rule.toScheme.toRule digest : Rule σ).aggregate partials).perform state =
        (.ok result, after) →
      ∃ again listed relisted,
        ((rule.toScheme.toRule digest : Rule σ).aggregate [result]).perform state =
          (.ok again, state) ∧
        result.rewards = .ok listed ∧ again.rewards = .ok relisted ∧
        List.Forall₂ SameReward relisted listed) := by
  constructor
  · intro table hlists
    obtain ⟨rewards, hrewards⟩ := ResultTable.exists_rewards_iff.mpr hlists
    refine ⟨rewards, hrewards, fun hnodup => ?_⟩
    have hperm := List.mergeSort_perm rewards fun a b => decide (a.1 ≤ b.1)
    have hascending := pairwise_lt_mergeSort hnodup
    obtain ⟨result, hresult, hlisted⟩ := Scheme.aggregate_of_ascending hrewards hperm hascending
    refine ⟨result, _, _, ?_, hlisted, forall₂_sameReward_firstTotal _, hperm,
      hascending.imp fun hlt => Identity.utf8_lt_iff.mpr hlt⟩
    rw [Scheme.perform_aggregate, hresult]
  · intro partials result after h
    rw [Scheme.perform_aggregate] at h
    obtain ⟨totals, -, rfl⟩ := Scheme.aggregate_eq_ok_iff.mp (Prod.mk.inj h).1
    have hlisted := ResultTable.rewards_ofRewards totals
    -- the entries of a dictionary ascend already
    obtain ⟨again, hagain, hrelisted⟩ :=
      Scheme.aggregate_of_ascending hlisted (List.Perm.refl _) totals.ascending
    refine ⟨again, _, _, ?_, hlisted, hrelisted, forall₂_sameReward_firstTotal _⟩
    rw [Scheme.perform_aggregate, hagain]

/-- The payees change places, and negative zero loses its sign. -/
example :
    (Scheme.aggregate [⟨ResultTable.rewardFields,
        [⟨[[.text "0xb", .text "0xa"], [.double (-0.0), .double 0.5]]⟩]⟩] >>=
      ResultTable.rewards) = .ok [("0xa", 0.5), ("0xb", 0.0)] := by
  rfl

end Rewards
