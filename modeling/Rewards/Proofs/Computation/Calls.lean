/-
What a computation asks of a rule, and in which order.

A rule may be anything.  Its operations may fail, and how they go may depend on what other
operations have done before, since each of them acts on a state.  So the calls are written
down by a second rule, which hands every call on to the first one and keeps a list of them
beside its state.  Nothing else is different (`Follows`), and what the list holds in the end
is what has been asked for.

There is one way to succeed: the rule is identified, it answers for all cycles from the first
to the last, the answers are brought together, and the payments are listed.  Each of these
steps is also a way to fail, by the problem that it reports, and then it is the last one on
the list.  A selection without cycles is the only problem that no step reports.
-/
import Rewards.Proofs.Computation

namespace Rewards

/-! ### The selected cycles -/

namespace RunSelection

variable {selection : RunSelection} {length : UInt64}

theorem paymentCycles_eq_nil_iff : selection.paymentCycles length = [] ↔ selection.cycles = 0 := by
  have hreachable : selection.reachable length = 0 ↔ selection.cycles.toNat = 0 := by
    rw [reachable]
    split_ifs with hlength
    · rfl
    · rw [Nat.min_eq_zero_iff, or_iff_left (Nat.succ_ne_zero _)]
  rw [paymentCycles, List.map_eq_nil_iff, List.reverse_eq_nil_iff, List.range_eq_nil, hreachable,
    ← UInt32.toNat_inj]
  rfl

/-- If there are cycles, the last one is the one that is paid. -/
theorem getLast?_of_cycles_ne_zero (h : selection.cycles ≠ 0) :
    (selection.paymentCycles length).getLast? = some selection.paymentCycle := by
  cases hlast : (selection.paymentCycles length).getLast? with
  | none => exact absurd (paymentCycles_eq_nil_iff.mp (List.getLast?_eq_none_iff.mp hlast)) h
  | some last => rw [eq_paymentCycle_of_getLast? hlast]

/-- The cycles ascend; they are all the same one if a cycle has no length. -/
theorem pairwise_le_paymentCycles : (selection.paymentCycles length).Pairwise (· ≤ ·) := by
  rw [paymentCycles, List.pairwise_map, List.pairwise_reverse]
  refine List.pairwise_lt_range.imp fun {i j} hlt => ?_
  rw [UInt64.le_iff_toNat_le, Word.toNat_ofNat_sub, Word.toNat_ofNat_sub]
  exact Nat.sub_le_sub_left (Nat.mul_le_mul_right _ (Nat.le_of_lt hlt)) _

end RunSelection

/-! ### Steps that are written down -/

namespace Action

variable {σ τ α β : Type}

/-- A step that is put on a list when it is made. -/
def noted (entry : τ) (step : Action σ α) : Action (σ × List τ) α :=
  fun noted => ((step.perform noted.1).1, (step.perform noted.1).2, noted.2 ++ [entry])

theorem perform_noted (entry : τ) (step : Action σ α) (state : σ) (notes : List τ) :
    (step.noted entry).perform (state, notes) =
      ((step.perform state).1, (step.perform state).2, notes ++ [entry]) :=
  rfl

theorem perform_noted_of_eq {step : Action σ α} {state after : σ} {outcome : Outcome α}
    (h : step.perform state = (outcome, after)) (entry : τ) (notes : List τ) :
    (step.noted entry).perform (state, notes) = (outcome, after, notes ++ [entry]) := by
  rw [perform_noted, h]

/-- An action does what another one does, and may keep something beside the state. -/
def Follows (action : Action (σ × τ) α) (other : Action σ α) : Prop :=
  ∀ state kept, (action.perform (state, kept)).1 = (other.perform state).1 ∧
    (action.perform (state, kept)).2.1 = (other.perform state).2

theorem follows_noted (entry : τ) (step : Action σ α) : Follows (step.noted entry) step := by
  intro state notes
  exact ⟨rfl, rfl⟩

theorem follows_pure (a : α) : Follows (τ := τ) (pure a : Action (σ × τ) α) (pure a) := by
  intro state kept
  exact ⟨rfl, rfl⟩

theorem follows_throw (problem : Problem) :
    Follows (τ := τ) (throw problem : Action (σ × τ) α) (throw problem) := by
  intro state kept
  exact ⟨rfl, rfl⟩

theorem Follows.bind {action : Action (σ × τ) α} {other : Action σ α}
    {next : α → Action (σ × τ) β} {otherNext : α → Action σ β} (h : Follows action other)
    (hnext : ∀ a, Follows (next a) (otherNext a)) :
    Follows (action >>= next) (other >>= otherNext) := by
  intro state kept
  obtain ⟨houtcome, hafter⟩ := h state kept
  cases haction : action.perform (state, kept) with
  | mk outcome mid =>
      obtain ⟨after, kept'⟩ := mid
      rw [haction] at houtcome hafter
      cases outcome with
      | error problem =>
          rw [perform_bind_of_error haction,
            perform_bind_of_error (Prod.ext houtcome.symm hafter.symm)]
          exact ⟨rfl, rfl⟩
      | ok a =>
          rw [perform_bind_of_ok haction, perform_bind_of_ok (Prod.ext houtcome.symm hafter.symm)]
          exact hnext a after kept'

theorem Follows.mapM {f : α → Action (σ × τ) β} {g : α → Action σ β}
    (h : ∀ a, Follows (f a) (g a)) (l : List α) : Follows (l.mapM f) (l.mapM g) := by
  induction l with
  | nil => exact follows_pure []
  | cons a rest ih =>
      rw [List.mapM_cons, List.mapM_cons]
      refine (h a).bind fun b => ih.bind fun bs => ?_
      exact follows_pure (b :: bs)

end Action

/-! ### The calls of a rule -/

/-- What a rule can be asked for. -/
inductive Call where
  | identity
  | query (range : BlockRange)
  | run (cycle : Block) (program : String)
  | aggregate (answers : List ResultTable)
  | paymentList (table : ResultTable) (cycle : Block) (program : String)

variable {σ : Type}

/-- A rule asked for something, of which only matters how it goes. -/
def Rule.ask (rule : Rule σ) (context : Context σ) : Call → Action σ Unit
  | .identity => do let _ ← rule.identity
  | .query range => do let _ ← rule.query context range
  | .run cycle program => do let _ ← rule.run context cycle program
  | .aggregate answers => do let _ ← rule.aggregate answers
  | .paymentList table cycle program => do let _ ← rule.paymentList table cycle program

/-- The rule that writes down what it is asked for and hands it on, always in one context. -/
def Rule.noting (rule : Rule σ) (context : Context σ) : Rule (σ × List Call) where
  name := rule.name
  core := rule.core
  identity := rule.identity.noted .identity
  query _ range := (rule.query context range).noted (.query range)
  run _ cycle program := (rule.run context cycle program).noted (.run cycle program)
  aggregate answers := (rule.aggregate answers).noted (.aggregate answers)
  paymentList table cycle program :=
    (rule.paymentList table cycle program).noted (.paymentList table cycle program)

section

variable {rule : Rule σ} {context : Context σ} {outer : Context (σ × List Call)}
  {selection : RunSelection} {program : String} {state mid after : σ} {cycles before : List Block}
  {cycle : Block} {tables : List ResultTable} {problem : Problem} {notes calls : List Call}
  {outcome : Outcome PaymentRun}

/-- The answers for some cycles, each call put on the list. -/
def notedAnswers (rule : Rule σ) (context : Context σ) (program : String) (cycles : List Block) :
    Action (σ × List Call) (List ResultTable) :=
  cycles.mapM fun cycle => (rule.run context cycle program).noted (.run cycle program)

theorem notedAnswers_cons : notedAnswers rule context program (cycle :: cycles) = (do
    let table ← (rule.run context cycle program).noted (.run cycle program)
    let tables ← notedAnswers rule context program cycles
    return table :: tables) :=
  List.mapM_cons

theorem computePayments_noting : computePayments (rule.noting context) outer selection = (do
    let identity ← rule.identity.noted .identity
    match (selection.paymentCycles rule.core.cycleLength).getLast? with
    | none => throw (noCycle selection)
    | some last =>
      let tables ← notedAnswers rule context selection.programId
        (selection.paymentCycles rule.core.cycleLength)
      let aggregated ← (rule.aggregate tables).noted (.aggregate tables)
      let payments ← (rule.paymentList aggregated last selection.programId).noted
        (.paymentList aggregated last selection.programId)
      return ⟨rule.name, identity, selection.paymentCycles rule.core.cycleLength, payments,
        .ofPayments payments⟩) :=
  rfl

/-- Writing the calls down does not change what is computed. -/
theorem follows_computePayments_noting :
    Action.Follows (computePayments (rule.noting context) outer selection)
      (computePayments rule context selection) := by
  rw [computePayments_noting, computePayments]
  refine (Action.follows_noted _ _).bind fun identity => ?_
  dsimp only
  cases (selection.paymentCycles rule.core.cycleLength).getLast? with
  | none => exact Action.follows_throw _
  | some last =>
      refine (Action.Follows.mapM (fun cycle => Action.follows_noted _ _) _).bind fun tables => ?_
      refine (Action.follows_noted _ _).bind fun aggregated => ?_
      refine (Action.follows_noted _ _).bind fun payments => ?_
      exact Action.follows_pure _

/-! ### Answering for one cycle after the other -/

/-- A rule answers for some cycles, one after the other. -/
inductive Answers (rule : Rule σ) (context : Context σ) (program : String) :
    σ → List Block → List ResultTable → σ → Prop
  | nil {state : σ} : Answers rule context program state [] [] state
  | cons {state mid after : σ} {cycle : Block} {cycles : List Block} {table : ResultTable}
      {tables : List ResultTable}
      (h : (rule.run context cycle program).perform state = (.ok table, mid))
      (rest : Answers rule context program mid cycles tables after) :
      Answers rule context program state (cycle :: cycles) (table :: tables) after

/-- The calls for some cycles. -/
def runCalls (program : String) (cycles : List Block) : List Call :=
  cycles.map fun cycle => .run cycle program

/-- Either a rule answers for all of some cycles, or there is a first one for which it fails. -/
theorem answers_or_fails (rule : Rule σ) (context : Context σ) (program : String) :
    ∀ (cycles : List Block) (state : σ),
      (∃ tables after, Answers rule context program state cycles tables after) ∨
      ∃ before cycle following tables mid problem after, cycles = before ++ cycle :: following ∧
        Answers rule context program state before tables mid ∧
        (rule.run context cycle program).perform mid = (.error problem, after) := by
  intro cycles
  induction cycles with
  | nil => intro state; exact Or.inl ⟨[], state, .nil⟩
  | cons cycle rest ih =>
      intro state
      cases hrun : (rule.run context cycle program).perform state with
      | mk outcome mid =>
          cases outcome with
          | error problem =>
              exact Or.inr ⟨[], cycle, rest, [], state, problem, mid, rfl, .nil, hrun⟩
          | ok table =>
              rcases ih mid with ⟨tables, after, h⟩ |
                ⟨before, failing, following, tables, reached, problem, after, rfl, h, hfail⟩
              · exact Or.inl ⟨table :: tables, after, .cons hrun h⟩
              · exact Or.inr ⟨cycle :: before, failing, following, table :: tables, reached,
                  problem, after, rfl, .cons hrun h, hfail⟩

theorem Answers.perform_noted (h : Answers rule context program state cycles tables after) :
    ∀ notes, (notedAnswers rule context program cycles).perform (state, notes) =
      (.ok tables, after, notes ++ runCalls program cycles) := by
  induction h with
  | nil =>
      intro notes
      rw [runCalls, List.map_nil, List.append_nil]
      rfl
  | cons h rest ih =>
      intro notes
      rw [notedAnswers_cons, Action.perform_bind_of_ok (Action.perform_noted_of_eq h _ notes),
        Action.perform_bind_of_ok (ih _), List.append_assoc]
      rfl

/-- No call comes after the first one that fails. -/
theorem Answers.perform_noted_of_fails
    (h : Answers rule context program state before tables mid) :
    ∀ notes following, (rule.run context cycle program).perform mid = (.error problem, after) →
      (notedAnswers rule context program (before ++ cycle :: following)).perform (state, notes) =
          (.error problem, after, notes ++ runCalls program (before ++ [cycle])) := by
  induction h with
  | nil =>
      intro notes following hfail
      rw [List.nil_append, notedAnswers_cons,
        Action.perform_bind_of_error (Action.perform_noted_of_eq hfail _ notes)]
      rfl
  | cons h rest ih =>
      intro notes following hfail
      rw [List.cons_append, notedAnswers_cons,
        Action.perform_bind_of_ok (Action.perform_noted_of_eq h _ notes),
        Action.perform_bind_of_error (ih _ following hfail), List.append_assoc]
      rfl

/-! ### The ways that a computation can go -/

/-- How a computation can go: what has been asked for, what it comes to, and the state after it. -/
inductive Computed (rule : Rule σ) (context : Context σ) (selection : RunSelection) (state : σ) :
    List Call → Outcome PaymentRun → σ → Prop
  | unidentified {problem : Problem} {after : σ}
      (h : rule.identity.perform state = (.error problem, after)) :
      Computed rule context selection state [.identity] (.error problem) after
  /-- There is no cycle to pay for. -/
  | unselected {identity : RuleIdentity} {after : σ}
      (hidentity : rule.identity.perform state = (.ok identity, after))
      (h : selection.cycles = 0) :
      Computed rule context selection state [.identity] (.error (noCycle selection)) after
  /-- The rule has no answer for a cycle, while it had one for those before it. -/
  | unanswered {identity : RuleIdentity} {identified answered after : σ}
      {before following : List Block} {cycle : Block} {tables : List ResultTable}
      {problem : Problem}
      (hidentity : rule.identity.perform state = (.ok identity, identified))
      (hcycles : selection.paymentCycles rule.core.cycleLength = before ++ cycle :: following)
      (htables : Answers rule context selection.programId identified before tables answered)
      (h : (rule.run context cycle selection.programId).perform answered = (.error problem, after)) :
      Computed rule context selection state
        (.identity :: runCalls selection.programId (before ++ [cycle])) (.error problem) after
  | unaggregated {identity : RuleIdentity} {identified answered after : σ}
      {tables : List ResultTable} {problem : Problem}
      (hidentity : rule.identity.perform state = (.ok identity, identified))
      (hcycles : selection.cycles ≠ 0)
      (htables : Answers rule context selection.programId identified
        (selection.paymentCycles rule.core.cycleLength) tables answered)
      (h : (rule.aggregate tables).perform answered = (.error problem, after)) :
      Computed rule context selection state
        (.identity :: runCalls selection.programId (selection.paymentCycles rule.core.cycleLength) ++
          [.aggregate tables]) (.error problem) after
  | unlisted {identity : RuleIdentity} {identified answered summed after : σ}
      {tables : List ResultTable} {aggregated : ResultTable} {problem : Problem}
      (hidentity : rule.identity.perform state = (.ok identity, identified))
      (hcycles : selection.cycles ≠ 0)
      (htables : Answers rule context selection.programId identified
        (selection.paymentCycles rule.core.cycleLength) tables answered)
      (haggregated : (rule.aggregate tables).perform answered = (.ok aggregated, summed))
      (h : (rule.paymentList aggregated selection.paymentCycle selection.programId).perform summed =
        (.error problem, after)) :
      Computed rule context selection state
        (.identity :: runCalls selection.programId (selection.paymentCycles rule.core.cycleLength) ++
          [.aggregate tables, .paymentList aggregated selection.paymentCycle selection.programId])
        (.error problem) after
  | listed {identity : RuleIdentity} {identified answered summed after : σ}
      {tables : List ResultTable} {aggregated : ResultTable} {payments : List PaymentRecord}
      (hidentity : rule.identity.perform state = (.ok identity, identified))
      (hcycles : selection.cycles ≠ 0)
      (htables : Answers rule context selection.programId identified
        (selection.paymentCycles rule.core.cycleLength) tables answered)
      (haggregated : (rule.aggregate tables).perform answered = (.ok aggregated, summed))
      (h : (rule.paymentList aggregated selection.paymentCycle selection.programId).perform summed =
        (.ok payments, after)) :
      Computed rule context selection state
        (.identity :: runCalls selection.programId (selection.paymentCycles rule.core.cycleLength) ++
          [.aggregate tables, .paymentList aggregated selection.paymentCycle selection.programId])
        (.ok ⟨rule.name, identity, selection.paymentCycles rule.core.cycleLength, payments,
          .ofPayments payments⟩) after

/-- A computation goes in one of these ways. -/
theorem exists_computed (rule : Rule σ) (context : Context σ) (selection : RunSelection)
    (state : σ) : ∃ calls outcome after, Computed rule context selection state calls outcome after := by
  cases hidentity : rule.identity.perform state with
  | mk outcome identified =>
      cases outcome with
      | error problem => exact ⟨_, _, _, .unidentified hidentity⟩
      | ok identity =>
          by_cases hcycles : selection.cycles = 0
          · exact ⟨_, _, _, .unselected hidentity hcycles⟩
          rcases answers_or_fails rule context selection.programId
              (selection.paymentCycles rule.core.cycleLength) identified with
            ⟨tables, answered, htables⟩ |
              ⟨before, cycle, following, tables, answered, problem, after, hsplit, htables, hfail⟩
          · cases haggregated : (rule.aggregate tables).perform answered with
            | mk outcome summed =>
                cases outcome with
                | error problem =>
                    exact ⟨_, _, _, .unaggregated hidentity hcycles htables haggregated⟩
                | ok aggregated =>
                    cases hlisted : (rule.paymentList aggregated selection.paymentCycle
                        selection.programId).perform summed with
                    | mk outcome after =>
                        cases outcome with
                        | error problem =>
                            exact ⟨_, _, _, .unlisted hidentity hcycles htables haggregated hlisted⟩
                        | ok payments =>
                            exact ⟨_, _, _, .listed hidentity hcycles htables haggregated hlisted⟩
          · exact ⟨_, _, _, .unanswered hidentity hsplit htables hfail⟩

/-- **What is asked for is what the way of the computation says.** -/
theorem Computed.perform_noting (h : Computed rule context selection state calls outcome after) :
    (computePayments (rule.noting context) outer selection).perform (state, []) =
      (outcome, after, calls) := by
  rw [computePayments_noting]
  cases h with
  | unidentified h => exact Action.perform_bind_of_error (Action.perform_noted_of_eq h _ [])
  | unselected hidentity h =>
      rw [Action.perform_bind_of_ok (Action.perform_noted_of_eq hidentity _ []),
        RunSelection.paymentCycles_eq_nil_iff.mpr h]
      rfl
  | unanswered hidentity hcycles htables h =>
      have hselected : selection.cycles ≠ 0 := fun hzero => by
        rw [RunSelection.paymentCycles_eq_nil_iff.mpr hzero] at hcycles
        exact List.append_ne_nil_of_right_ne_nil _ (List.cons_ne_nil _ _) hcycles.symm
      rw [Action.perform_bind_of_ok (Action.perform_noted_of_eq hidentity _ [])]
      simp only [RunSelection.getLast?_of_cycles_ne_zero hselected]
      rw [hcycles]
      exact Action.perform_bind_of_error (htables.perform_noted_of_fails _ _ h)
  | unaggregated hidentity hcycles htables h =>
      rw [Action.perform_bind_of_ok (Action.perform_noted_of_eq hidentity _ [])]
      simp only [RunSelection.getLast?_of_cycles_ne_zero hcycles]
      rw [Action.perform_bind_of_ok (htables.perform_noted _),
        Action.perform_bind_of_error (Action.perform_noted_of_eq h _ _)]
      rfl
  | unlisted hidentity hcycles htables haggregated h =>
      rw [Action.perform_bind_of_ok (Action.perform_noted_of_eq hidentity _ [])]
      simp only [RunSelection.getLast?_of_cycles_ne_zero hcycles]
      rw [Action.perform_bind_of_ok (htables.perform_noted _),
        Action.perform_bind_of_ok (Action.perform_noted_of_eq haggregated _ _),
        Action.perform_bind_of_error (Action.perform_noted_of_eq h _ _), List.append_assoc]
      rfl
  | listed hidentity hcycles htables haggregated h =>
      rw [Action.perform_bind_of_ok (Action.perform_noted_of_eq hidentity _ [])]
      simp only [RunSelection.getLast?_of_cycles_ne_zero hcycles]
      rw [Action.perform_bind_of_ok (htables.perform_noted _),
        Action.perform_bind_of_ok (Action.perform_noted_of_eq haggregated _ _),
        Action.perform_bind_of_ok (Action.perform_noted_of_eq h _ _), List.append_assoc]
      rfl

/-- **A problem is reported by the last step that was taken**, unless there was no cycle. -/
theorem Computed.reported (h : Computed rule context selection state calls outcome after)
    (hfailed : outcome = .error problem) :
    (calls = [.identity] ∧ selection.cycles = 0 ∧ problem = noCycle selection ∧
      ∃ identity, rule.identity.perform state = (.ok identity, after)) ∨
    ∃ earlier call before, calls = earlier ++ [call] ∧
      (rule.ask context call).perform before = (.error problem, after) := by
  cases h with
  | unidentified h =>
      obtain rfl := Except.error.inj hfailed
      exact Or.inr ⟨[], .identity, state, rfl, Action.perform_bind_of_error h⟩
  | unselected hidentity h =>
      exact Or.inl ⟨rfl, h, (Except.error.inj hfailed).symm, _, hidentity⟩
  | @unanswered _ _ answered _ before _ cycle _ _ _ _ _ h =>
      obtain rfl := Except.error.inj hfailed
      refine Or.inr ⟨.identity :: runCalls selection.programId before,
        .run cycle selection.programId, answered, ?_, Action.perform_bind_of_error h⟩
      rw [runCalls, List.map_append]
      rfl
  | unaggregated _ _ _ h =>
      obtain rfl := Except.error.inj hfailed
      exact Or.inr ⟨_, .aggregate _, _, rfl, Action.perform_bind_of_error h⟩
  | @unlisted _ _ _ _ _ tables aggregated _ _ _ _ _ h =>
      obtain rfl := Except.error.inj hfailed
      refine Or.inr ⟨.identity :: runCalls selection.programId
        (selection.paymentCycles rule.core.cycleLength) ++ [.aggregate tables],
        .paymentList aggregated selection.paymentCycle selection.programId, _, ?_,
        Action.perform_bind_of_error h⟩
      rw [List.append_assoc]
      rfl
  | listed => cases hfailed

end

/--
**A computation asks for one thing after the other and stops at the first problem.**  Writing
down what a rule is asked for changes nothing, and what is written down, what comes out and
which state is left are those of one of the ways that a computation can go.  The cycles ascend
to the one that is paid.  A problem is the one that the last step has reported, and that a
selection has no cycle is reported exactly where the rule is identified and there is none.
-/
theorem stops_at_first_problem (rule : Rule σ) (context : Context σ)
    (outer : Context (σ × List Call)) (selection : RunSelection) (state : σ) :
    let cycles := selection.paymentCycles rule.core.cycleLength
    let noted := (computePayments (rule.noting context) outer selection).perform (state, [])
    (computePayments rule context selection).perform state = (noted.1, noted.2.1) ∧
    (∀ calls outcome after,
      noted = (outcome, after, calls) ↔ Computed rule context selection state calls outcome after) ∧
    cycles.Pairwise (· ≤ ·) ∧
    (selection.cycles ≠ 0 → cycles.getLast? = some selection.paymentCycle) ∧
    (∀ problem, noted.1 = .error problem →
      (noted.2.2 = [.identity] ∧ selection.cycles = 0 ∧ problem = noCycle selection ∧
        ∃ identity, rule.identity.perform state = (.ok identity, noted.2.1)) ∨
      ∃ earlier call before, noted.2.2 = earlier ++ [call] ∧
        (rule.ask context call).perform before = (.error problem, noted.2.1)) ∧
    (∀ identity identified, rule.identity.perform state = (.ok identity, identified) →
      selection.cycles = 0 → noted = (.error (noCycle selection), identified, [.identity])) ∧
    (noCycle selection).category = .configuration := by
  intro cycles noted
  obtain ⟨calls, outcome, after, hcomputed⟩ := exists_computed rule context selection state
  have hnoted : noted = (outcome, after, calls) := hcomputed.perform_noting
  have hfollows : Action.Follows (computePayments (rule.noting context) outer selection)
      (computePayments rule context selection) := follows_computePayments_noting
  obtain ⟨hsame, hleft⟩ := hfollows state []
  refine ⟨Prod.ext hsame.symm hleft.symm, ?_, RunSelection.pairwise_le_paymentCycles,
    fun h => RunSelection.getLast?_of_cycles_ne_zero h, ?_, ?_, rfl⟩
  · intro calls' outcome' after'
    constructor
    · intro h
      rw [hnoted] at h
      cases h
      exact hcomputed
    · intro h
      exact h.perform_noting
  · intro problem hfailed
    rw [hnoted] at hfailed ⊢
    exact hcomputed.reported hfailed
  · intro identity identified hidentity hcycles
    exact (Computed.unselected hidentity hcycles).perform_noting

end Rewards
