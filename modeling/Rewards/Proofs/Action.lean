/-
Actions performed.

An action that goes on after another one is performed from the state that the other one
left behind, and if the other one fails, it is not performed at all.  So two actions have
a result exactly if the first one has and the second one has from there, and an action
for every element of a list has one for each of them, from whatever state it came to.
-/
import Mathlib
import Rewards.Problem

namespace Rewards.Action

variable {σ α β : Type}

@[simp] theorem perform_ofOutcome (outcome : Outcome α) (state : σ) :
    (ofOutcome outcome).perform state = (outcome, state) := rfl

theorem perform_get_bind (next : σ → Action σ β) (state : σ) :
    ((get : Action σ σ) >>= next).perform state = (next state).perform state := rfl

theorem perform_bind_of_ok {action : Action σ α} {next : α → Action σ β} {state after : σ} {a : α}
    (h : action.perform state = (.ok a, after)) :
    (action >>= next).perform state = (next a).perform after := by
  have hstate : action state = (.ok a, after) := h
  show (action >>= next) state = next a after
  simp only [Bind.bind, ExceptT.bind, ExceptT.mk, StateT.bind, hstate, ExceptT.bindCont]

theorem perform_bind_of_error {action : Action σ α} {next : α → Action σ β} {state after : σ}
    {problem : Problem} (h : action.perform state = (.error problem, after)) :
    (action >>= next).perform state = (.error problem, after) := by
  have hstate : action state = (.error problem, after) := h
  show (action >>= next) state = _
  simp only [Bind.bind, ExceptT.bind, ExceptT.mk, StateT.bind, hstate, ExceptT.bindCont]
  rfl

theorem perform_bind_eq_ok {action : Action σ α} {next : α → Action σ β} {state after : σ} {b : β} :
    (action >>= next).perform state = (.ok b, after) ↔
      ∃ a mid, action.perform state = (.ok a, mid) ∧ (next a).perform mid = (.ok b, after) := by
  constructor
  · intro h
    cases haction : action.perform state with
    | mk outcome mid =>
        cases outcome with
        | ok a =>
            rw [perform_bind_of_ok haction] at h
            exact ⟨a, mid, rfl, h⟩
        | error problem =>
            rw [perform_bind_of_error haction] at h
            cases h
  · rintro ⟨a, mid, haction, hnext⟩
    rw [perform_bind_of_ok haction, hnext]

theorem perform_ofOutcome_eq_ok {outcome : Outcome α} {state after : σ} {a : α} :
    (ofOutcome outcome).perform state = (.ok a, after) ↔ outcome = .ok a ∧ after = state := by
  rw [perform_ofOutcome, Prod.mk.injEq, eq_comm (a := state)]

/-- An action for each element of a list has a result for each of them. -/
theorem forall₂_of_perform_mapM {f : α → Action σ β} : ∀ {l : List α} {bs : List β} {state after : σ},
    (l.mapM f).perform state = (.ok bs, after) →
      List.Forall₂ (fun a b => ∃ before behind, (f a).perform before = (.ok b, behind)) l bs := by
  intro l
  induction l with
  | nil =>
      intro bs state after h
      cases h
      exact .nil
  | cons a rest ih =>
      intro bs state after h
      rw [List.mapM_cons] at h
      obtain ⟨b, mid, hb, h⟩ := perform_bind_eq_ok.mp h
      obtain ⟨bs', behind, hrest, h⟩ := perform_bind_eq_ok.mp h
      cases h
      exact .cons ⟨state, mid, hb⟩ (ih hrest)

end Rewards.Action
