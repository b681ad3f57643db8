/-
What reading a record from an object comes to.

A description of fields goes through the entries of an object with a draft, and what it
makes of them is a matter of the draft.  What a reader of the record wants to know is
another thing: under which key each field was found and what it was read as.  The two are
tied together here, once for one field and once for each way in which descriptions combine,
so that a record of any number of fields is settled by how it was put together.

Two things carry this.  Entries have different keys, so a field is met once and no second
value gets in its way; and descriptions that are combined have different names, so an entry
concerns one of the two and leaves the other as it was.
-/
import Mathlib
import Rewards.Json.Source
import Rewards.Proofs.Json.Same
import Rewards.Proofs.Outcome

namespace Rewards.Shape

/-- Fields that are read from JSON values. -/
abbrev JsonFields (α : Type) := Fields (Except Mismatch) Json α

open Outcome (bind_eq_ok map_eq_ok)

variable {α β : Type}

/-- The value of a key in entries that have different ones. -/
def valueOf? (entries : List (String × Json)) (key : String) : Option Json :=
  (entries.find? (fun e => e.1 == key)).map (·.2)

theorem valueOf?_cons (e : String × Json) (rest : List (String × Json)) (key : String) :
    valueOf? (e :: rest) key = if e.1 = key then some e.2 else valueOf? rest key := by
  rw [valueOf?, Dictionary.find?_cons_key]
  by_cases h : e.1 = key
  · rw [if_pos h, if_pos h]
    rfl
  · rw [if_neg h, if_neg h]
    rfl

theorem valueOf?_eq_none {entries : List (String × Json)} {key : String}
    (h : key ∉ entries.map (·.1)) : valueOf? entries key = none := by
  induction entries with
  | nil => rfl
  | cons e rest ih =>
      rw [List.map_cons, List.mem_cons, not_or] at h
      rw [valueOf?_cons, if_neg fun heq => h.1 heq.symm]
      exact ih h.2

/-- An object has as the value of a key what its entries have. -/
theorem valueOf?_entries (members : List (String × Json)) (key : String) :
    valueOf? (Json.entries members) key = Json.lastMember? key members := by
  have hget : valueOf? (Json.entries members) key = (Dictionary.ofList members).get? key := rfl
  rw [hget, Dictionary.get?_ofList, Json.lastMember?_eq_find?]

theorem isSome_lastMember?_iff_entries {members : List (String × Json)} {key : String} :
    (Json.lastMember? key members).isSome = true ↔ ∃ e ∈ Json.entries members, e.1 = key := by
  rw [← valueOf?_entries, valueOf?, Option.isSome_map, List.find?_isSome]
  simp only [beq_iff_eq]

namespace Fields

/-- The draft after an entry, where one of another key changes nothing. -/
def step (f : JsonFields α) (draft : f.Draft) (e : String × Json) : Except Mismatch f.Draft :=
  (f.visit draft e.1 e.2).getD (.ok draft)

/-- What the fields are after some entries. -/
def Gives (f : JsonFields α) (entries : List (String × Json)) (a : α) : Prop :=
  ∃ draft, entries.foldlM f.step f.start = .ok draft ∧ f.finish draft = .ok a

/-- A description of fields with the given names, which are `a` exactly if `Holds` says so of
the values that their keys have. -/
structure Describes (f : JsonFields α) (names : List String)
    (Holds : (String → Option Json) → α → Prop) : Prop where
  names_eq : f.names = names
  /-- The entries that concern a field are those with its name. -/
  isSome_visit : ∀ draft key v, (f.visit draft key v).isSome = true ↔ key ∈ names
  isRead_start : ∀ key, f.isRead f.start key = false
  /-- An entry is remembered for its own key only. -/
  isRead_visit : ∀ {draft key v next}, f.visit draft key v = some (.ok next) →
    ∀ other, f.isRead next other = true → other = key ∨ f.isRead draft other = true
  gives_iff : ∀ {entries : List (String × Json)}, (entries.map (·.1)).Nodup →
    ∀ a, f.Gives entries a ↔ Holds (valueOf? entries) a

/-! ### One field -/

/-- What a field is, given the value of its key. -/
def IsField (read : Json → Except Mismatch α) (absent : Option α) (v? : Option Json) (a : α) :
    Prop :=
  match v? with
  | some v => read v = .ok a
  | none => absent = some a

/-- A field without a default has a value to be read from. -/
theorem IsField.exists_of_required {read : Json → Except Mismatch α} {v? : Option Json} {a : α}
    (h : IsField read none v? a) : ∃ v, v? = some v ∧ read v = .ok a := by
  cases v? with
  | none => cases h
  | some v => exact ⟨v, rfl, h⟩

section One

variable (name : String) (read : Json → Except Mismatch α) (absent : Option α)

/-- The field after an entry. -/
def stepOne (draft : Option α) (e : String × Json) : Except Mismatch (Option α) :=
  if e.1 = name then some <$> read e.2 else .ok draft

theorem step_one : (one name read absent).step = stepOne name read := by
  funext draft e
  show (if e.1 = name then some (some <$> read e.2) else none).getD (.ok draft) =
    if e.1 = name then some <$> read e.2 else .ok draft
  by_cases h : e.1 = name
  · rw [if_pos h, if_pos h]
    rfl
  · rw [if_neg h, if_neg h]
    rfl

theorem foldlM_stepOne : ∀ {entries : List (String × Json)}, (entries.map (·.1)).Nodup →
    ∀ {draft next : Option α}, entries.foldlM (stepOne name read) draft = .ok next ↔
      match valueOf? entries name with
      | some v => some <$> read v = .ok next
      | none => next = draft := by
  intro entries
  induction entries with
  | nil =>
      intro _ draft next
      exact ⟨fun h => (Except.ok.inj h).symm, fun h => congrArg Except.ok h.symm⟩
  | cons e rest ih =>
      intro hkeys draft next
      obtain ⟨hnew, hrest⟩ := List.nodup_cons.mp hkeys
      rw [List.foldlM_cons, bind_eq_ok, valueOf?_cons, stepOne]
      by_cases hname : e.1 = name
      · -- no later entry has this key
        have hnew : name ∉ rest.map (·.1) := by
          rw [← hname]
          exact hnew
        have hlater : ∀ {draft' : Option α},
            rest.foldlM (stepOne name read) draft' = .ok next ↔ next = draft' := by
          intro draft'
          rw [ih hrest, valueOf?_eq_none hnew]
        simp only [if_pos hname, hlater, exists_eq_right']
      · simp only [if_neg hname, ih hrest, Except.ok.injEq, exists_eq_left']

theorem gives_one_iff {entries : List (String × Json)} (hkeys : (entries.map (·.1)).Nodup) (a : α) :
    (one name read absent).Gives entries a ↔ IsField read absent (valueOf? entries name) a := by
  have hgives : (one name read absent).Gives entries a ↔
      ∃ draft, entries.foldlM (stepOne name read) none = .ok draft ∧
        (one name read absent).finish draft = .ok a := by
    rw [Gives, step_one]
    rfl
  rw [hgives]
  simp only [foldlM_stepOne name read hkeys]
  cases valueOf? entries name with
  | some v =>
      constructor
      · rintro ⟨draft, hdraft, hfinish⟩
        obtain ⟨b, hb, rfl⟩ := map_eq_ok.mp hdraft
        obtain rfl : b = a := Except.ok.inj hfinish
        exact hb
      · intro h
        exact ⟨some a, map_eq_ok.mpr ⟨a, h, rfl⟩, rfl⟩
  | none =>
      constructor
      · rintro ⟨draft, rfl, hfinish⟩
        cases absent with
        | none => cases hfinish
        | some b => exact congrArg some (Except.ok.inj hfinish)
      · rintro h
        have habsent : absent = some a := h
        exact ⟨none, rfl, by rw [habsent]; rfl⟩

theorem describes_one :
    (one name read absent).Describes [name] fun get => IsField read absent (get name) where
  names_eq := rfl
  isSome_visit := by
    intro draft key v
    show (if key = name then some (some <$> read v) else none).isSome = true ↔ _
    by_cases h : key = name
    · simp [h]
    · simp [h]
  isRead_start := fun key => Bool.and_false _
  isRead_visit := by
    intro draft key v next hvisit other hread
    have hother : other = name := of_decide_eq_true (Bool.and_eq_true_iff.mp hread).1
    have hvisit : (if key = name then some (some <$> read v) else none) = some (.ok next) := hvisit
    by_cases h : key = name
    · exact Or.inl (hother.trans h.symm)
    · rw [if_neg h] at hvisit
      cases hvisit
  gives_iff := gives_one_iff name read absent

theorem describes_required :
    (required name read).Describes [name] fun get => IsField read none (get name) :=
  describes_one name read none

theorem describes_defaulted (a : α) :
    (defaulted name read a).Describes [name] fun get => IsField read (some a) (get name) :=
  describes_one name read (some a)

end One

/-! ### Fields together -/

section Together

variable {f : JsonFields (α → β)} {x : JsonFields α} {names others : List String}

theorem Describes.map {y : JsonFields α} {Holds : (String → Option Json) → α → Prop}
    (h : y.Describes names Holds) (g : α → β) :
    (g <$> y).Describes names fun get b => ∃ a, Holds get a ∧ g a = b where
  names_eq := h.names_eq
  isSome_visit := h.isSome_visit
  isRead_start := h.isRead_start
  isRead_visit := h.isRead_visit
  gives_iff := by
    intro entries hkeys b
    simp only [← h.gives_iff hkeys]
    constructor
    · rintro ⟨draft, hfold, hfinish⟩
      obtain ⟨a, ha, hb⟩ := map_eq_ok.mp hfinish
      exact ⟨a, ⟨draft, hfold, ha⟩, hb⟩
    · rintro ⟨a, ⟨draft, hfold, ha⟩, hb⟩
      exact ⟨draft, hfold, map_eq_ok.mpr ⟨a, ha, hb⟩⟩

theorem visit_seq_of_some {draft : f.Draft × x.Draft} {key : String} {v : Json}
    {next : Except Mismatch f.Draft} (h : f.visit draft.1 key v = some next) :
    (f <*> x).visit draft key v = some ((fun first => (first, draft.2)) <$> next) := by
  simp only [Seq.seq]
  rw [h]

theorem visit_seq_of_none {draft : f.Draft × x.Draft} {key : String} {v : Json}
    (h : f.visit draft.1 key v = none) :
    (f <*> x).visit draft key v =
      (x.visit draft.2 key v).map fun next => (fun second => (draft.1, second)) <$> next := by
  simp only [Seq.seq]
  rw [h]

/-- The two drafts after an entry. -/
def stepBoth (f : JsonFields (α → β)) (x : JsonFields α) (draft : f.Draft × x.Draft)
    (e : String × Json) : Except Mismatch (f.Draft × x.Draft) := do
  let first ← f.step draft.1 e
  let second ← x.step draft.2 e
  return (first, second)

theorem foldlM_stepBoth {entries : List (String × Json)} : ∀ {draft next : f.Draft × x.Draft},
    entries.foldlM (stepBoth f x) draft = .ok next ↔
      entries.foldlM f.step draft.1 = .ok next.1 ∧ entries.foldlM x.step draft.2 = .ok next.2 := by
  induction entries with
  | nil =>
      intro draft next
      show Except.ok draft = Except.ok next ↔ Except.ok draft.1 = Except.ok next.1 ∧
        Except.ok draft.2 = Except.ok next.2
      simp only [Except.ok.injEq]
      exact Prod.ext_iff
  | cons e rest ih =>
      intro draft next
      simp only [List.foldlM_cons, bind_eq_ok, stepBoth]
      constructor
      · rintro ⟨_, ⟨first, hfirst, second, hsecond, hboth⟩, h⟩
        obtain rfl := Except.ok.inj hboth
        obtain ⟨hf, hx⟩ := ih.mp h
        exact ⟨⟨first, hfirst, hf⟩, ⟨second, hsecond, hx⟩⟩
      · rintro ⟨⟨first, hfirst, hf⟩, ⟨second, hsecond, hx⟩⟩
        exact ⟨(first, second), ⟨first, hfirst, second, hsecond, rfl⟩, ih.mpr ⟨hf, hx⟩⟩

theorem step_seq (hdisjoint : ∀ {draft key v}, (f.visit draft key v).isSome = true →
    ∀ draft', x.visit draft' key v = none) (draft : f.Draft × x.Draft) (e : String × Json) :
    (f <*> x).step draft e = stepBoth f x draft e := by
  rw [stepBoth, step, step, step]
  cases hf : f.visit draft.1 e.1 e.2 with
  | some first =>
      have hx : x.visit draft.2 e.1 e.2 = none := hdisjoint (by rw [hf]; rfl) draft.2
      rw [visit_seq_of_some hf, hx]
      cases first <;> rfl
  | none =>
      rw [visit_seq_of_none hf]
      cases x.visit draft.2 e.1 e.2 with
      | none => rfl
      | some second => cases second <;> rfl

theorem gives_seq_iff (hdisjoint : ∀ {draft key v}, (f.visit draft key v).isSome = true →
    ∀ draft', x.visit draft' key v = none) {entries : List (String × Json)} {b : β} :
    (f <*> x).Gives entries b ↔ ∃ g a, f.Gives entries g ∧ x.Gives entries a ∧ g a = b := by
  have hstep : (f <*> x).step = stepBoth f x := by
    funext draft e
    exact step_seq hdisjoint draft e
  have hgives : (f <*> x).Gives entries b ↔
      ∃ draft, entries.foldlM (stepBoth f x) (f.start, x.start) = .ok draft ∧
        (f <*> x).finish draft = .ok b := by
    rw [Gives, hstep]
    rfl
  rw [hgives]
  simp only [foldlM_stepBoth]
  constructor
  · rintro ⟨draft, ⟨hfirst, hsecond⟩, hfinish⟩
    obtain ⟨g, hg, hfinish⟩ := bind_eq_ok.mp hfinish
    obtain ⟨a, ha, hb⟩ := bind_eq_ok.mp hfinish
    exact ⟨g, a, ⟨_, hfirst, hg⟩, ⟨_, hsecond, ha⟩, Except.ok.inj hb⟩
  · rintro ⟨g, a, ⟨first, hfirst, hg⟩, ⟨second, hsecond, ha⟩, rfl⟩
    exact ⟨(first, second), ⟨hfirst, hsecond⟩,
      bind_eq_ok.mpr ⟨g, hg, bind_eq_ok.mpr ⟨a, ha, rfl⟩⟩⟩

theorem Describes.seq {Holds : (String → Option Json) → (α → β) → Prop}
    {HoldsToo : (String → Option Json) → α → Prop} (hf : f.Describes names Holds)
    (hx : x.Describes others HoldsToo) (hdisjoint : ∀ key ∈ names, key ∉ others) :
    (f <*> x).Describes (names ++ others)
      fun get b => ∃ g a, Holds get g ∧ HoldsToo get a ∧ g a = b := by
  constructor
  case names_eq =>
    show f.names ++ x.names = _
    rw [hf.names_eq, hx.names_eq]
  case isSome_visit =>
    intro draft key v
    rw [List.mem_append, ← hf.isSome_visit draft.1 key v, ← hx.isSome_visit draft.2 key v]
    cases hvisit : f.visit draft.1 key v with
    | some next => simp [visit_seq_of_some hvisit]
    | none => simp [visit_seq_of_none hvisit]
  case isRead_start =>
    intro key
    show (f.isRead f.start key || x.isRead x.start key) = false
    rw [hf.isRead_start, hx.isRead_start]
    rfl
  case isRead_visit =>
    intro draft key v next hvisit other hread
    have hread : (f.isRead next.1 other || x.isRead next.2 other) = true := hread
    show _ ∨ (f.isRead draft.1 other || x.isRead draft.2 other) = true
    rw [Bool.or_eq_true] at hread ⊢
    cases hfirst : f.visit draft.1 key v with
    | some read =>
        rw [visit_seq_of_some hfirst] at hvisit
        obtain ⟨first, rfl, rfl⟩ := map_eq_ok.mp (Option.some.inj hvisit)
        rcases hread with hread | hread
        · rcases hf.isRead_visit hfirst other hread with h | h
          · exact Or.inl h
          · exact Or.inr (Or.inl h)
        · exact Or.inr (Or.inr hread)
    | none =>
        rw [visit_seq_of_none hfirst] at hvisit
        obtain ⟨read, hsecond, hread'⟩ := Option.map_eq_some_iff.mp hvisit
        obtain ⟨second, rfl, rfl⟩ := map_eq_ok.mp hread'
        rcases hread with hread | hread
        · exact Or.inr (Or.inl hread)
        · rcases hx.isRead_visit hsecond other hread with h | h
          · exact Or.inl h
          · exact Or.inr (Or.inr h)
  case gives_iff =>
    intro entries hkeys b
    have hnone : ∀ {draft key v}, (f.visit draft key v).isSome = true →
        ∀ draft', x.visit draft' key v = none := by
      intro draft key v hsome draft'
      have hname := (hf.isSome_visit draft key v).mp hsome
      rw [← Option.not_isSome_iff_eq_none, hx.isSome_visit]
      exact hdisjoint key hname
    rw [gives_seq_iff hnone]
    simp only [hf.gives_iff hkeys, hx.gives_iff hkeys]

theorem Describes.required {Holds : (String → Option Json) → (α → β) → Prop}
    (hf : f.Describes names Holds) {name : String} {read : Json → Except Mismatch α}
    (hnew : name ∉ names) : (f <*> required name read).Describes (names ++ [name])
      fun get b => ∃ g a, Holds get g ∧ IsField read none (get name) a ∧ g a = b := by
  refine hf.seq (describes_required name read) fun key hkey hname => ?_
  obtain rfl := List.mem_singleton.mp hname
  exact hnew hkey

theorem Describes.defaulted {Holds : (String → Option Json) → (α → β) → Prop}
    (hf : f.Describes names Holds) {name : String} {read : Json → Except Mismatch α} {absent : α}
    (hnew : name ∉ names) : (f <*> defaulted name read absent).Describes (names ++ [name])
      fun get b => ∃ g a, Holds get g ∧ IsField read (some absent) (get name) a ∧ g a = b := by
  refine hf.seq (describes_defaulted name read absent) fun key hkey hname => ?_
  obtain rfl := List.mem_singleton.mp hname
  exact hnew hkey

end Together

/-! ### Records -/

section Record

variable {f : JsonFields α} {names : List String} {Holds : (String → Option Json) → α → Prop}

theorem visitEntry_eq_ok_iff (h : f.Describes names Holds) {strictness : Strictness} {whole : Json}
    {draft next : f.Draft} {e : String × Json} (hfresh : f.isRead draft e.1 = false) :
    visitEntry strictness f whole draft e.1 e.2 = .ok next ↔
      (strictness = .strict → e.1 ∈ names) ∧ f.step draft e = .ok next := by
  unfold visitEntry step
  rw [if_neg (by simp [hfresh]), ← h.isSome_visit draft e.1 e.2]
  cases f.visit draft e.1 e.2 with
  | some read => simp
  | none =>
      cases strictness with
      | strict =>
          constructor
          · intro hnext
            cases hnext
          · intro hnext
            cases hnext.1 rfl
      | lenient =>
          constructor
          · intro hnext
            exact ⟨nofun, hnext⟩
          · intro hnext
            exact hnext.2

theorem isRead_step (h : f.Describes names Holds) {draft next : f.Draft} {e : String × Json}
    (hstep : f.step draft e = .ok next) {other : String} (hother : other ≠ e.1)
    (hfresh : f.isRead draft other = false) : f.isRead next other = false := by
  rw [step] at hstep
  cases hvisit : f.visit draft e.1 e.2 with
  | none =>
      rw [hvisit] at hstep
      obtain rfl : draft = next := Except.ok.inj hstep
      exact hfresh
  | some read =>
      rw [hvisit] at hstep
      obtain rfl : read = .ok next := hstep
      rw [← Bool.not_eq_true]
      intro hread
      rcases h.isRead_visit hvisit other hread with heq | hread
      · exact hother heq
      · rw [hfresh] at hread
        cases hread

/-- Entries with different keys are taken one by one, and a strict record has no other keys. -/
theorem foldlM_visitEntry (h : f.Describes names Holds) {strictness : Strictness} {whole : Json} :
    ∀ {entries : List (String × Json)} {draft next : f.Draft}, (entries.map (·.1)).Nodup →
      (∀ e ∈ entries, f.isRead draft e.1 = false) →
        (entries.foldlM (fun d e => visitEntry strictness f whole d e.1 e.2) draft = .ok next ↔
          (strictness = .strict → ∀ e ∈ entries, e.1 ∈ names) ∧
            entries.foldlM f.step draft = .ok next) := by
  intro entries
  induction entries with
  | nil =>
      intro draft next _ _
      exact ⟨fun hnext => ⟨fun _ => by simp, hnext⟩, fun hnext => hnext.2⟩
  | cons e rest ih =>
      intro draft next hkeys hfresh
      obtain ⟨hnew, hrest⟩ := List.nodup_cons.mp hkeys
      obtain ⟨hhead, htail⟩ := List.forall_mem_cons.mp hfresh
      have hlater : ∀ {draft'}, f.step draft e = .ok draft' →
          ∀ e' ∈ rest, f.isRead draft' e'.1 = false := by
        intro draft' hstep e' he'
        apply isRead_step h hstep
        · intro heq
          exact hnew (List.mem_map.mpr ⟨e', he', heq⟩)
        · exact htail e' he'
      rw [List.foldlM_cons, List.foldlM_cons, bind_eq_ok, bind_eq_ok, List.forall_mem_cons]
      constructor
      · rintro ⟨draft', hvisit, hfold⟩
        obtain ⟨hknown, hstep⟩ := (visitEntry_eq_ok_iff h hhead).mp hvisit
        obtain ⟨hothers, hfold⟩ := (ih hrest (hlater hstep)).mp hfold
        exact ⟨fun hstrict => ⟨hknown hstrict, hothers hstrict⟩, draft', hstep, hfold⟩
      · rintro ⟨hknown, draft', hstep, hfold⟩
        refine ⟨draft', (visitEntry_eq_ok_iff h hhead).mpr ⟨fun hs => (hknown hs).1, hstep⟩, ?_⟩
        exact (ih hrest (hlater hstep)).mpr ⟨fun hs => (hknown hs).2, hfold⟩

/-- **A record is read from an object exactly if its fields are read from the values of their keys,
and the object has no other keys where the record is strict.** -/
theorem Describes.record_eq_ok_iff (h : f.Describes names Holds) {name : String}
    {strictness : Strictness} {members : List (String × Json)} {a : α} :
    record name strictness f (.object members) = .ok a ↔
      (strictness = .strict → ∀ key, (Json.lastMember? key members).isSome = true → key ∈ names) ∧
        Holds (Json.lastMember? · members) a := by
  have hkeys : ((Json.entries members).map (·.1)).Nodup := Dictionary.nodup_keys _
  have hread : record name strictness f (.object members) = .ok a ↔ ∃ draft,
      (Json.entries members).foldlM
        (fun d e => visitEntry strictness f (.object members) d e.1 e.2) f.start = .ok draft ∧
      f.finish draft = .ok a := by
    refine bind_eq_ok.trans (exists_congr fun draft => and_congr_right fun _ => ?_)
    cases f.finish draft with
    | error missing =>
        constructor
        · intro h
          cases h
        · intro h
          cases h
    | ok b =>
        constructor
        · intro h
          exact congrArg Except.ok (Except.ok.inj h)
        · intro h
          exact congrArg Except.ok (Except.ok.inj h)
  have hstrict : (∀ e ∈ Json.entries members, e.1 ∈ names) ↔
      ∀ key, (Json.lastMember? key members).isSome = true → key ∈ names := by
    constructor
    · intro hall key hkey
      obtain ⟨e, he, rfl⟩ := isSome_lastMember?_iff_entries.mp hkey
      exact hall e he
    · intro hall e he
      exact hall e.1 (isSome_lastMember?_iff_entries.mpr ⟨e, he, rfl⟩)
  rw [hread]
  simp only [foldlM_visitEntry h hkeys fun e _ => h.isRead_start e.1, and_assoc,
    exists_and_left, hstrict]
  have hgives := h.gives_iff hkeys a
  rw [funext (valueOf?_entries members)] at hgives
  rw [← hgives]
  rfl

end Record

end Fields

end Rewards.Shape
