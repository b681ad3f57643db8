/-
What a draft of a query collects.

A draft is asked for one table and range after the other.  Whether it has one already is
told by the alias alone, and that is enough: an alias ends in two numbers, between
underscores that no number has, so it falls apart into the table and the two blocks in one
way only, however many underscores and digits the name of the table has.  Each range of a
table is therefore scanned once, with the files that were found when it was first granted.

One turn is taken apart into its five cases (`QueryDraft.Step`).  That a draft collects what
was granted is kept by one more turn (`Collects.ask`), and so it holds after any of them.
-/
import Rewards.Proofs.Block
import Rewards.Proofs.Distinct
import Rewards.Proofs.Query.Draft

namespace Rewards

/-! ### Names -/

/-- A text that starts with a lower-case letter or an underscore and goes on with those and digits. -/
structure IsRelationName (name : String) : Prop where
  head : ∃ c ∈ name.toList.head?, c = '_' ∨ ('a' ≤ c ∧ c ≤ 'z')
  all : ∀ c ∈ name.toList, c = '_' ∨ ('a' ≤ c ∧ c ≤ 'z') ∨ ('0' ≤ c ∧ c ≤ '9')

theorem isDigit_iff {c : Char} : c.isDigit = true ↔ '0' ≤ c ∧ c ≤ '9' := by
  simp only [Char.isDigit, Bool.and_eq_true, decide_eq_true_eq]
  rfl

theorem isIdentifierStart_iff {c : Char} :
    Text.isIdentifierStart c = true ↔ c = '_' ∨ ('a' ≤ c ∧ c ≤ 'z') := by
  simp only [Text.isIdentifierStart, Char.isLower, Bool.or_eq_true, Bool.and_eq_true,
    decide_eq_true_eq]
  exact or_comm

theorem isIdentifierChar_iff {c : Char} :
    Text.isIdentifierChar c = true ↔ c = '_' ∨ ('a' ≤ c ∧ c ≤ 'z') ∨ ('0' ≤ c ∧ c ≤ '9') := by
  rw [Text.isIdentifierChar, Bool.or_eq_true, isIdentifierStart_iff, isDigit_iff, or_assoc]

/-- What stands after the last underscore of a text is read off from its end. -/
theorem takeWhile_reverse_append {a m : List Char} (hm : '_' ∉ m) :
    (a ++ '_' :: m).reverse.takeWhile (· ≠ '_') = m.reverse := by
  have hreverse : (a ++ '_' :: m).reverse = m.reverse ++ '_' :: a.reverse := by simp
  rw [hreverse, List.takeWhile_append_of_pos, List.takeWhile_cons_of_neg (by simp), List.append_nil]
  intro c hc
  have hne : c ≠ '_' := fun h => hm (h ▸ List.mem_reverse.mp hc)
  simpa using hne

/-- What stands before the last underscore and after it is told by the whole. -/
theorem append_underscore_inj {a b m n : List Char} (hm : '_' ∉ m) (hn : '_' ∉ n)
    (h : a ++ '_' :: m = b ++ '_' :: n) : a = b ∧ m = n := by
  have hread := congrArg (fun cs => cs.reverse.takeWhile (· ≠ '_')) h
  simp only [takeWhile_reverse_append hm, takeWhile_reverse_append hn] at hread
  obtain rfl := List.reverse_injective hread
  exact ⟨List.append_cancel_right h, rfl⟩

/-! ### Aliases -/

/-- A range of a table. -/
structure TableRange where
  table : String
  range : BlockRange
deriving DecidableEq

namespace TableRange

/-- The alias of a range of a table. -/
def relation (t : TableRange) : String :=
  QueryDraft.aliasOf t.table t.range

theorem toList_relation (t : TableRange) :
    t.relation.toList = (t.table.toList ++ '_' :: (wordText t.range.first).toList) ++
      '_' :: (wordText t.range.last).toList := by
  simp [relation, QueryDraft.aliasOf, String.toList_append]

/-- **Different ranges of tables have different aliases.** -/
theorem relation_injective {t u : TableRange} (h : t.relation = u.relation) : t = u := by
  have hlist := congrArg String.toList h
  rw [toList_relation, toList_relation] at hlist
  obtain ⟨hfront, hlast⟩ := append_underscore_inj (not_mem_natText rfl _)
    (not_mem_natText rfl _) hlist
  obtain ⟨htable, hfirst⟩ := append_underscore_inj (not_mem_natText rfl _)
    (not_mem_natText rfl _) hfront
  obtain ⟨table, first, last⟩ := t
  obtain ⟨table', first', last'⟩ := u
  obtain rfl : table = table' := String.toList_inj.mp htable
  obtain rfl : first = first' := wordText_injective (String.toList_inj.mp hfirst)
  obtain rfl : last = last' := wordText_injective (String.toList_inj.mp hlast)
  rfl

-- the names of both tables could end in the first block of a range
example : (⟨"t_1", ⟨2, 3⟩⟩ : TableRange).relation ≠ (⟨"t", ⟨1, 2⟩⟩ : TableRange).relation := by
  decide +kernel

/-- The alias of a table with a lower-case identifier is one itself, whatever the range. -/
theorem isRelationName_relation {t : TableRange} (h : Text.isIdentifier t.table = true) :
    IsRelationName t.relation := by
  cases htable : t.table.toList with
  | nil =>
      rw [Text.isIdentifier, htable] at h
      cases h
  | cons c rest =>
      rw [Text.isIdentifier, htable, Bool.and_eq_true, List.all_eq_true] at h
      have hdigits : ∀ {n : UInt64} {d : Char}, d ∈ (wordText n).toList → '0' ≤ d ∧ d ≤ '9' :=
        fun hd => isDigit_iff.mp (isDigit_of_mem_natText hd)
      refine ⟨⟨c, by simp [toList_relation, htable], isIdentifierStart_iff.mp h.1⟩, ?_⟩
      intro d hd
      simp only [toList_relation, htable, List.mem_append, List.mem_cons] at hd
      rcases hd with ((rfl | hd) | rfl | hd) | rfl | hd
      · exact (isIdentifierStart_iff.mp h.1).imp_right .inl
      · exact isIdentifierChar_iff.mp (h.2 d hd)
      · exact .inl rfl
      · exact .inr (.inr (hdigits hd))
      · exact .inl rfl
      · exact .inr (.inr (hdigits hd))

end TableRange

/-! ### One turn -/

/-- A range of a table that a draft is asked for: the draft before, the answer, the draft after. -/
structure Turn (σ : Type) where
  asked : TableRange
  before : QueryDraft σ
  answer : Outcome String
  after : QueryDraft σ

namespace QueryDraft

variable {σ : Type} (source : PartitionSource σ) (locations : Dictionary String)

/-- Ask a draft for a range of a table. -/
def ask (draft : QueryDraft σ) (asked : TableRange) : Turn σ :=
  let (answer, after) :=
    (QueryDraft.table source locations asked.table asked.range).perform draft
  ⟨asked, draft, answer, after⟩

/-- What asking for a range can come to: the answer, and the draft afterwards. -/
inductive Step (draft : QueryDraft σ) (asked : TableRange) : Outcome String → QueryDraft σ → Prop
  | misnamed (h : Text.isIdentifier asked.table = false) :
      Step draft asked (.error (.configuration
        ("invalid table name '" ++ asked.table ++ "': expected a lowercase identifier"))) draft
  | long (hname : Text.isIdentifier asked.table = true)
      (h : aliasLimit < asked.relation.utf8ByteSize) :
      Step draft asked (.error (.configuration
        ("table name '" ++ asked.table ++ "' is too long to alias"))) draft
  | again (hname : Text.isIdentifier asked.table = true)
      (hfits : asked.relation.utf8ByteSize ≤ aliasLimit) (h : draft.HasAlias asked.relation) :
      Step draft asked (.ok asked.relation) draft
  | missing {problem : Problem} {state : σ} (hname : Text.isIdentifier asked.table = true)
      (hfits : asked.relation.utf8ByteSize ≤ aliasLimit) (hnew : ¬ draft.HasAlias asked.relation)
      (h : (source locations asked.table asked.range).perform draft.source =
        (.error problem, state)) :
      Step draft asked (.error problem) ⟨state, draft.scans⟩
  | found {files : List String} {state : σ} (hname : Text.isIdentifier asked.table = true)
      (hfits : asked.relation.utf8ByteSize ≤ aliasLimit) (hnew : ¬ draft.HasAlias asked.relation)
      (h : (source locations asked.table asked.range).perform draft.source = (.ok files, state)) :
      Step draft asked (.ok asked.relation)
        ⟨state, draft.scans ++ [⟨asked.relation, asked.table, files⟩]⟩

/-- Asking comes to one of the five. -/
theorem step (draft : QueryDraft σ) (asked : TableRange) :
    Step source locations draft asked (draft.ask source locations asked).answer
      (draft.ask source locations asked).after := by
  unfold ask
  cases hname : Text.isIdentifier asked.table with
  | false =>
      rw [perform_table_of_not_identifier hname]
      exact .misnamed hname
  | true =>
      by_cases hfits : asked.relation.utf8ByteSize ≤ aliasLimit
      · by_cases hhas : draft.HasAlias asked.relation
        · rw [perform_table_of_hasAlias hname hfits hhas]
          exact .again hname hfits hhas
        · cases hfiles : (source locations asked.table asked.range).perform draft.source with
          | mk outcome state =>
              rw [perform_table_of_new hname hfits hhas hfiles]
              cases outcome with
              | ok files => exact .found hname hfits hhas hfiles
              | error problem =>
                  show Step source locations draft asked (.error problem)
                    ⟨state, draft.scans ++ []⟩
                  rw [List.append_nil]
                  exact .missing hname hfits hhas hfiles
      · have hlong : aliasLimit < asked.relation.utf8ByteSize := Nat.lt_of_not_le hfits
        rw [perform_table_of_long hname hlong]
        exact .long hname hlong

variable {source locations} {draft after : QueryDraft σ} {asked : TableRange} {name : String}
  {problem : Problem}

/-- The name that is given is the alias, which is made of an identifier and not too long. -/
theorem Step.name_eq (h : Step source locations draft asked (.ok name) after) :
    name = asked.relation ∧ Text.isIdentifier asked.table = true ∧
      asked.relation.utf8ByteSize ≤ aliasLimit := by
  cases h with
  | again hname hfits => exact ⟨rfl, hname, hfits⟩
  | found hname hfits => exact ⟨rfl, hname, hfits⟩

/-- **Every name that is given is a short lower-case identifier.** -/
theorem Step.isRelationName (h : Step source locations draft asked (.ok name) after) :
    name.utf8ByteSize ≤ aliasLimit ∧ IsRelationName name := by
  obtain ⟨rfl, hname, hfits⟩ := h.name_eq
  exact ⟨hfits, TableRange.isRelationName_relation hname⟩

/-- Requests that are given the same name are for the same range. -/
theorem Step.asked_eq {other : QueryDraft σ} {asked' : TableRange} {after' : QueryDraft σ}
    (h : Step source locations draft asked (.ok name) after)
    (h' : Step source locations other asked' (.ok name) after') : asked = asked' :=
  TableRange.relation_injective (h.name_eq.1.symm.trans h'.name_eq.1)

/--
**A request that fails adds no scan.**  Either it has no alias, and no files are looked for, or
its problem is that of looking for them.
-/
theorem Step.of_error (h : Step source locations draft asked (.error problem) after) :
    after.scans = draft.scans ∧
      ((after.source = draft.source ∧ (Text.isIdentifier asked.table = false ∨
          aliasLimit < asked.relation.utf8ByteSize)) ∨
        (source locations asked.table asked.range).perform draft.source =
          (.error problem, after.source)) := by
  cases h with
  | misnamed h => exact ⟨rfl, .inl ⟨rfl, .inl h⟩⟩
  | long hname h => exact ⟨rfl, .inl ⟨rfl, .inr h⟩⟩
  | missing hname hfits hnew h => exact ⟨rfl, .inr h⟩

/-- A granted request leaves the draft as it is if its alias is there, and adds a scan if not. -/
theorem Step.of_ok (h : Step source locations draft asked (.ok name) after) :
    (draft.HasAlias asked.relation ∧ after = draft) ∨
      (¬ draft.HasAlias asked.relation ∧ ∃ files,
        (source locations asked.table asked.range).perform draft.source =
          (.ok files, after.source) ∧
        after.scans = draft.scans ++ [⟨asked.relation, asked.table, files⟩]) := by
  cases h with
  | again hname hfits h => exact .inl ⟨h, rfl⟩
  | found hname hfits hnew h => exact .inr ⟨hnew, _, h, rfl⟩

/-! ### Turns one after the other -/

variable (source locations)

/-- The draft after some requests. -/
def afterAll (draft : QueryDraft σ) (requests : List TableRange) : QueryDraft σ :=
  requests.foldl (fun draft asked => (draft.ask source locations asked).after) draft

/-- The turns of some requests, one after the other. -/
def turns : QueryDraft σ → List TableRange → List (Turn σ)
  | _, [] => []
  | draft, asked :: rest =>
    draft.ask source locations asked :: turns (draft.ask source locations asked).after rest

theorem afterAll_append_singleton (draft : QueryDraft σ) (requests : List TableRange)
    (asked : TableRange) : draft.afterAll source locations (requests ++ [asked]) =
      ((draft.afterAll source locations requests).ask source locations asked).after := by
  rw [afterAll, List.foldl_append]
  rfl

theorem turns_append_singleton (draft : QueryDraft σ) (requests : List TableRange)
    (asked : TableRange) : turns source locations draft (requests ++ [asked]) =
      turns source locations draft requests ++
        [(draft.afterAll source locations requests).ask source locations asked] := by
  induction requests generalizing draft with
  | nil => rfl
  | cons first rest ih =>
      rw [List.cons_append, turns, ih, turns, List.cons_append]
      rfl

/-- Each of the turns is one step. -/
theorem step_of_mem_turns {source : PartitionSource σ} {locations : Dictionary String}
    {turn : Turn σ} {draft : QueryDraft σ} {requests : List TableRange}
    (h : turn ∈ turns source locations draft requests) :
    Step source locations turn.before turn.asked turn.answer turn.after := by
  induction requests generalizing draft with
  | nil => cases h
  | cons first rest ih =>
      rcases List.mem_cons.mp h with rfl | hrest
      · exact step source locations draft first
      · exact ih hrest

end QueryDraft

namespace Turn

variable {σ : Type}

/-- Whether the range was granted. -/
def granted (turn : Turn σ) : Bool :=
  turn.answer.isOk

/-- The ranges that were granted, as often as they were. -/
def grants (made : List (Turn σ)) : List TableRange :=
  (made.filter (·.granted)).map (·.asked)

/-- The turn in which a range was granted first. -/
def firstGrant? (made : List (Turn σ)) (t : TableRange) : Option (Turn σ) :=
  made.find? fun turn => turn.granted && turn.asked = t

variable {made : List (Turn σ)} {turn : Turn σ} {t : TableRange} {name : String}

theorem granted_of_ok (h : turn.answer = .ok name) : turn.granted = true := by
  rw [granted, h]
  rfl

theorem granted_of_error {problem : Problem} (h : turn.answer = .error problem) :
    turn.granted = false := by
  rw [granted, h]
  rfl

theorem mem_grants_of_ok (hmem : turn ∈ made) (h : turn.answer = .ok name) :
    turn.asked ∈ grants made :=
  List.mem_map.mpr ⟨turn, List.mem_filter.mpr ⟨hmem, granted_of_ok h⟩, rfl⟩

theorem grants_append_singleton (made : List (Turn σ)) (turn : Turn σ) :
    grants (made ++ [turn]) = grants made ++ if turn.granted then [turn.asked] else [] := by
  rw [grants, List.filter_append, List.map_append, grants]
  congr 1
  cases h : turn.granted <;> simp [h]

/-- What was granted first is not changed by what comes later. -/
theorem firstGrant?_append_of_some {first : Turn σ} (h : firstGrant? made t = some first)
    (later : List (Turn σ)) : firstGrant? (made ++ later) t = some first := by
  rw [firstGrant?, List.find?_append, ← firstGrant?, h, Option.some_or]

/-- A range that was not granted before is granted first in the turn that does it. -/
theorem firstGrant?_append_singleton_of_new (hnew : turn.asked ∉ grants made)
    (hgranted : turn.granted = true) :
    firstGrant? (made ++ [turn]) turn.asked = some turn := by
  have hnone : firstGrant? made turn.asked = none := by
    rw [firstGrant?, List.find?_eq_none]
    intro e he heq
    rw [Bool.and_eq_true, decide_eq_true_eq] at heq
    exact hnew (List.mem_map.mpr ⟨e, List.mem_filter.mpr ⟨he, heq.1⟩, heq.2⟩)
  rw [firstGrant?, List.find?_append, ← firstGrant?, hnone, Option.none_or]
  simp [hgranted]

end Turn

namespace QueryDraft

variable {σ : Type} {source : PartitionSource σ} {locations : Dictionary String}

/-- A scan of a range, with the files that were found in the turn in which it was granted first. -/
structure Scanned (source : PartitionSource σ) (locations : Dictionary String)
    (made : List (Turn σ)) (t : TableRange) (scan : Scan) : Prop where
  relation_eq : scan.relation = t.relation
  table_eq : scan.table = t.table
  files : ∃ first, Turn.firstGrant? made t = some first ∧
    ((source locations t.table t.range).perform first.before.source).1 = .ok scan.files

/-- The scans of a draft are those of the ranges that were granted, each once, in this order. -/
abbrev Collects (source : PartitionSource σ) (locations : Dictionary String)
    (made : List (Turn σ)) (scans : List Scan) : Prop :=
  List.Forall₂ (Scanned source locations made) (distinct (Turn.grants made)) scans

variable {made : List (Turn σ)} {draft : QueryDraft σ}

theorem Scanned.append {t : TableRange} {scan : Scan} (h : Scanned source locations made t scan)
    (later : List (Turn σ)) : Scanned source locations (made ++ later) t scan := by
  obtain ⟨first, hfirst, hfiles⟩ := h.files
  exact ⟨h.relation_eq, h.table_eq, first, Turn.firstGrant?_append_of_some hfirst later, hfiles⟩

theorem Collects.relations_eq {scans : List Scan} (h : Collects source locations made scans) :
    scans.map (·.relation) = (distinct (Turn.grants made)).map (·.relation) := by
  have hall : List.Forall₂ (· = ·) (scans.map (·.relation))
      ((distinct (Turn.grants made)).map (·.relation)) := by
    rw [List.forall₂_map_left_iff, List.forall₂_map_right_iff]
    exact h.flip.imp fun _ _ hscanned => hscanned.relation_eq
  rwa [List.forall₂_eq_eq_eq] at hall

/-- **The relations of a draft have different names.** -/
theorem Collects.nodup {scans : List Scan} (h : Collects source locations made scans) :
    (scans.map (·.relation)).Nodup := by
  rw [h.relations_eq]
  exact (nodup_distinct _).map fun _ _ => TableRange.relation_injective

/-- **A draft has the alias of a range exactly if the range was granted.** -/
theorem Collects.hasAlias_iff (h : Collects source locations made draft.scans) {t : TableRange} :
    draft.HasAlias t.relation ↔ t ∈ Turn.grants made := by
  rw [HasAlias, ← List.mem_map, h.relations_eq,
    List.mem_map_of_injective fun _ _ => TableRange.relation_injective, mem_distinct]

/-- **A range that was granted keeps its name**, wherever its files would be looked for. -/
theorem Collects.ask_of_granted (h : Collects source locations made draft.scans) {turn : Turn σ}
    {name : String} (hmem : turn ∈ made) (hgranted : turn.answer = .ok name)
    (hstep : Step source locations turn.before turn.asked (.ok name) turn.after)
    (other : PartitionSource σ) :
    draft.ask other locations turn.asked = ⟨turn.asked, draft, .ok name, draft⟩ := by
  obtain ⟨rfl, hname, hfits⟩ := hstep.name_eq
  have hhas : draft.HasAlias turn.asked.relation :=
    h.hasAlias_iff.mpr (Turn.mem_grants_of_ok hmem hgranted)
  unfold ask
  rw [perform_table_of_hasAlias hname hfits hhas]
  rfl

/-- One more turn keeps a draft what it is. -/
theorem Collects.ask (h : Collects source locations made draft.scans) (asked : TableRange) :
    Collects source locations (made ++ [draft.ask source locations asked])
      (draft.ask source locations asked).after.scans := by
  have hkept : List.Forall₂ (Scanned source locations (made ++ [draft.ask source locations asked]))
      (distinct (Turn.grants made)) draft.scans := h.imp fun _ _ hscanned => hscanned.append _
  have hstep := draft.step source locations asked
  unfold Collects
  rw [Turn.grants_append_singleton]
  cases hanswer : (draft.ask source locations asked).answer with
  | error problem =>
      rw [hanswer] at hstep
      rw [Turn.granted_of_error hanswer, if_neg Bool.false_ne_true, List.append_nil, hstep.of_error.1]
      exact hkept
  | ok name =>
      rw [hanswer] at hstep
      have hgranted := Turn.granted_of_ok hanswer
      rw [hgranted, if_pos rfl, distinct_append_singleton]
      show List.Forall₂ _ (_ ++ if asked ∈ Turn.grants made then [] else [asked]) _
      rcases hstep.of_ok with ⟨hhas, hsame⟩ | ⟨hnew, files, hfiles, hscans⟩
      · rw [if_pos (h.hasAlias_iff.mp hhas), List.append_nil, hsame]
        exact hkept
      · have hasked : asked ∉ Turn.grants made := fun hmem => hnew (h.hasAlias_iff.mpr hmem)
        have hfirst := Turn.firstGrant?_append_singleton_of_new hasked hgranted
        have hscanned : Scanned source locations (made ++ [draft.ask source locations asked])
            asked ⟨asked.relation, asked.table, files⟩ :=
          ⟨rfl, rfl, _, hfirst, congrArg Prod.fst hfiles⟩
        rw [if_neg hasked, hscans]
        exact List.rel_append hkept (.cons hscanned .nil)

/-- **A draft collects what was granted.** -/
theorem collects (state : σ) (requests : List TableRange) :
    Collects source locations (turns source locations ⟨state, []⟩ requests)
      (afterAll source locations ⟨state, []⟩ requests).scans := by
  induction requests using List.reverseRecOn with
  | nil => exact .nil
  | append_singleton requests asked ih =>
      rw [turns_append_singleton, afterAll_append_singleton]
      exact ih.ask asked

/--
**A draft collects each range that it grants once.**  It is asked for any ranges of any
tables, granted or not, and then for one more.

The scans of the query are those of the ranges that were granted, each once and in the order
in which they were granted first, with the files that were found then, and their relations
have different names.  A range that was granted before keeps its name, and the draft stays as
it is, wherever files would be looked for; no other range is given this name.  A request that
fails adds no scan: the table has no identifier for a name or the alias is too long, and nothing
else changes, or the problem is that of the source.  Every name that is given is a lower-case
identifier of no more than 63 bytes.
-/
theorem collects_each_range_once {Statement : Type} (source : PartitionSource σ)
    (locations : Dictionary String) (state : σ) (requests : List TableRange) (asked : TableRange)
    (statement : Statement) :
    let draft := afterAll source locations ⟨state, []⟩ requests
    let made := turns source locations ⟨state, []⟩ requests
    let turn := draft.ask source locations asked
    Collects source locations made (draft.finish statement).scans ∧
    ((draft.finish statement).scans.map (·.relation)).Nodup ∧
    (∀ earlier ∈ made, ∀ name, earlier.answer = .ok name →
      (earlier.asked = asked → ∀ other : PartitionSource σ,
        draft.ask other locations asked = ⟨asked, draft, .ok name, draft⟩) ∧
      (turn.answer = .ok name → earlier.asked = asked)) ∧
    (∀ problem, turn.answer = .error problem →
      turn.after.scans = draft.scans ∧
        ((turn.after.source = draft.source ∧
            (Text.isIdentifier asked.table = false ∨ 63 < asked.relation.utf8ByteSize)) ∨
          (source locations asked.table asked.range).perform draft.source =
            (.error problem, turn.after.source))) ∧
    (∀ name, turn.answer = .ok name → name.utf8ByteSize ≤ 63 ∧ IsRelationName name) := by
  intro draft made turn
  have hcollects : Collects source locations made draft.scans := collects state requests
  have hstep : Step source locations draft asked turn.answer turn.after :=
    draft.step source locations asked
  refine ⟨hcollects, hcollects.nodup, ?_, ?_, ?_⟩
  · intro earlier hearlier name hgranted
    have hbefore := step_of_mem_turns hearlier
    rw [hgranted] at hbefore
    constructor
    · rintro rfl other
      exact hcollects.ask_of_granted hearlier hgranted hbefore other
    · intro hanswer
      rw [hanswer] at hstep
      exact hbefore.asked_eq hstep
  · intro problem hanswer
    rw [hanswer] at hstep
    exact hstep.of_error
  · intro name hanswer
    rw [hanswer] at hstep
    exact hstep.isRelationName

/-- A source that finds one file for each range and counts how often it is asked. -/
def countingSource : PartitionSource Nat :=
  fun _ table range asked => (.ok [table ++ "/" ++ wordText range.first], asked + 1)

-- the third request is for what the first one was granted, and the second one is refused
example :
    let draft := afterAll countingSource .empty ⟨0, []⟩
      [⟨"t", ⟨0, 9⟩⟩, ⟨"T", ⟨0, 9⟩⟩, ⟨"t", ⟨0, 9⟩⟩, ⟨"t_0", ⟨9, 9⟩⟩]
    draft.source = 2 ∧
      draft.scans = [⟨"t_0_9", "t", ["t/0"]⟩, ⟨"t_0_9_9", "t_0", ["t_0/9"]⟩] := by
  decide +kernel

end QueryDraft

end Rewards
