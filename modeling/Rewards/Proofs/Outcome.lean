/-
Outcomes taken apart.

A computation of several steps has a result exactly if each step has one, and a step
done for every element of a list exactly if it succeeds for each of them.  With these a
proof never opens the sequencing of outcomes itself.
-/
import Mathlib
import Rewards.Problem

namespace Rewards.Outcome

variable {α β : Type}

@[simp] theorem ok_bind (a : α) (f : α → Outcome β) : ((.ok a : Outcome α) >>= f) = f a := rfl

@[simp] theorem error_bind (p : Problem) (f : α → Outcome β) :
    ((.error p : Outcome α) >>= f) = .error p := rfl

/-- Two steps have a result if the first one has and the second one has from there. -/
theorem bind_eq_ok {ε : Type} {x : Except ε α} {f : α → Except ε β} {b : β} :
    (x >>= f) = .ok b ↔ ∃ a, x = .ok a ∧ f a = .ok b := by
  cases x with
  | error e => simp [Bind.bind, Except.bind]
  | ok a => simp [Bind.bind, Except.bind]

/-- A result that is changed is the image of the result before. -/
theorem map_eq_ok {ε : Type} {f : α → β} {x : Except ε α} {b : β} :
    f <$> x = .ok b ↔ ∃ a, x = .ok a ∧ f a = b := by
  cases x with
  | error e => simp [Functor.map, Except.map]
  | ok a => simp [Functor.map, Except.map]

/-- Another view of a problem makes no difference to a result. -/
theorem mapError_eq_ok {ε δ : Type} {f : ε → δ} {x : Except ε α} {a : α} :
    x.mapError f = .ok a ↔ x = .ok a := by
  cases x <;> simp [Except.mapError]

/-- Two steps have a problem if the first one has it, or the second one from where the first led. -/
theorem bind_eq_error {x : Outcome α} {f : α → Outcome β} {problem : Problem} :
    (x >>= f) = .error problem ↔ x = .error problem ∨ ∃ a, x = .ok a ∧ f a = .error problem := by
  cases x with
  | error p => simp
  | ok a => simp

/-- A step for each element of a list, where it has a known result for each of them. -/
theorem mapM_of_forall {f : α → Outcome β} {g : α → β} :
    ∀ {l : List α}, (∀ a ∈ l, f a = .ok (g a)) → l.mapM f = .ok (l.map g) := by
  intro l
  induction l with
  | nil => intro _; rfl
  | cons a rest ih =>
      intro h
      rw [List.mapM_cons, h a (by simp), ih fun b hb => h b (by simp [hb])]
      rfl

/-- A step for each element of a list has a result if it has one for each of them. -/
theorem mapM_eq_ok {f : α → Outcome β} :
    ∀ {l : List α} {bs : List β},
      l.mapM f = .ok bs ↔ List.Forall₂ (fun a b => f a = .ok b) l bs := by
  intro l
  induction l with
  | nil =>
      intro bs
      rw [List.forall₂_nil_left_iff]
      constructor
      · intro h
        cases h
        rfl
      · rintro rfl
        rfl
  | cons a rest ih =>
      intro bs
      rw [List.mapM_cons, bind_eq_ok, List.forall₂_cons_left_iff]
      constructor
      · rintro ⟨b, hb, h⟩
        obtain ⟨bs', hbs', h⟩ := bind_eq_ok.mp h
        cases h
        exact ⟨b, bs', hb, ih.mp hbs', rfl⟩
      · rintro ⟨b, bs', hb, hbs', rfl⟩
        exact ⟨b, hb, bind_eq_ok.mpr ⟨bs', ih.mpr hbs', rfl⟩⟩

/-- Every element has a result if a step for all of them has. -/
theorem exists_of_mapM {f : α → Outcome β} {l : List α} {bs : List β} (h : l.mapM f = .ok bs)
    {a : α} (ha : a ∈ l) : ∃ b, f a = .ok b := by
  obtain ⟨i, hi, rfl⟩ := List.getElem_of_mem ha
  have hall := mapM_eq_ok.mp h
  have hib : i < bs.length := hall.length_eq ▸ hi
  exact ⟨bs[i], hall.get hi hib⟩

/-- A step with a list for each element of a list has its lists one after the other. -/
theorem flatten_mapM_eq_ok_iff {f : α → Outcome (List β)} {p : α → Prop} {g : α → List β}
    {l : List α} (h : ∀ a ∈ l, ∀ bs, f a = .ok bs ↔ p a ∧ bs = g a) {bs : List β} :
    (do return (← l.mapM f).flatten) = (.ok bs : Outcome (List β)) ↔
      (∀ a ∈ l, p a) ∧ bs = l.flatMap g := by
  have hall : (∀ a ∈ l, p a) → l.mapM f = .ok (l.map g) :=
    fun hp => mapM_of_forall fun a ha => (h a ha _).mpr ⟨hp a ha, rfl⟩
  rw [bind_eq_ok]
  constructor
  · rintro ⟨parts, hparts, hflatten⟩
    have hp : ∀ a ∈ l, p a := fun a ha => by
      obtain ⟨part, hpart⟩ := exists_of_mapM hparts ha
      exact ((h a ha _).mp hpart).1
    rw [hall hp] at hparts
    cases hparts
    cases hflatten
    exact ⟨hp, rfl⟩
  · rintro ⟨hp, rfl⟩
    exact ⟨_, hall hp, rfl⟩

/-- A step for each element of a list has the problem of the first element for which it has one. -/
theorem mapM_eq_error {f : α → Outcome β} {problem : Problem} : ∀ {l : List α},
    l.mapM f = .error problem ↔
      ∃ before a after, l = before ++ a :: after ∧ (∀ c ∈ before, ∃ b, f c = .ok b) ∧
        f a = .error problem := by
  intro l
  induction l with
  | nil =>
      constructor
      · intro h
        cases h
      · rintro ⟨before, a, after, h, -⟩
        exact absurd h.symm (List.append_ne_nil_of_right_ne_nil _ (List.cons_ne_nil _ _))
  | cons c rest ih =>
      rw [List.mapM_cons, bind_eq_error]
      constructor
      · rintro (h | ⟨b, hb, h⟩)
        · exact ⟨[], c, rest, rfl, by simp, h⟩
        · rcases bind_eq_error.mp h with h | ⟨bs, -, h⟩
          · obtain ⟨before, a, after, rfl, hbefore, ha⟩ := ih.mp h
            exact ⟨c :: before, a, after, rfl, List.forall_mem_cons.mpr ⟨⟨b, hb⟩, hbefore⟩, ha⟩
          · cases h
      · rintro ⟨before, a, after, hl, hbefore, ha⟩
        cases before with
        | nil =>
            obtain ⟨rfl, rfl⟩ := List.cons.inj hl
            exact Or.inl ha
        | cons c' before =>
            obtain ⟨rfl, rfl⟩ := List.cons.inj hl
            obtain ⟨⟨b, hb⟩, hbefore⟩ := List.forall_mem_cons.mp hbefore
            exact Or.inr ⟨b, hb, bind_eq_error.mpr
              (Or.inl (ih.mpr ⟨before, a, after, rfl, hbefore, ha⟩))⟩

end Rewards.Outcome
