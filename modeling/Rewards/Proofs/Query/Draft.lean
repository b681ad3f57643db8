/-
Drafting a query, one table at a time.

A table is asked for with a range.  If its name is no identifier or too long for an alias,
or if there is a scan with its alias already, no files are looked for; otherwise whether it
is added depends on where its files are looked for only, and a draft to which it has been
added has one more scan, of just the files that were found.

The name of a table that is a short identifier can always be made into an alias: the two
blocks at its end have no more than twenty digits each.
-/
import Mathlib
import Rewards.Proofs.Action
import Rewards.Query

namespace Rewards

/-! ### The length of an alias -/

namespace QueryDraft

variable {σ : Type} {source : PartitionSource σ} {locations : Dictionary String} {table : String}
  {range : BlockRange} {state after : σ} {draft : QueryDraft σ}

/-- Looking for files goes through the source of the draft and keeps its scans. -/
theorem perform_resolve {outcome : Outcome (List String)}
    (h : (source locations table range).perform draft.source = (outcome, after)) :
    (resolve source locations table range).perform draft = (outcome, ⟨after, draft.scans⟩) := by
  have hsource : source locations table range draft.source = (outcome, after) := h
  show resolve source locations table range draft = _
  simp only [resolve, Action.perform, ExceptT.run, hsource]

/-- Whether there is a scan with the alias of a table and a range. -/
def HasAlias (draft : QueryDraft σ) (relation : String) : Prop :=
  ∃ s ∈ draft.scans, s.relation = relation

theorem any_scans_eq_true_iff {relation : String} :
    draft.scans.any (fun s => s.relation == relation) = true ↔ draft.HasAlias relation := by
  simp [HasAlias]

theorem perform_table_of_not_identifier (h : Text.isIdentifier table = false) :
    (QueryDraft.table source locations table range).perform draft =
      (.error (.configuration
        ("invalid table name '" ++ table ++ "': expected a lowercase identifier")), draft) := by
  simp only [QueryDraft.table, h, Bool.not_false, if_true]
  rfl

theorem perform_table_of_long (hname : Text.isIdentifier table = true)
    (h : aliasLimit < (aliasOf table range).utf8ByteSize) :
    (QueryDraft.table source locations table range).perform draft =
      (.error (.configuration ("table name '" ++ table ++ "' is too long to alias")), draft) := by
  simp only [QueryDraft.table, hname, Bool.not_true, Bool.false_eq_true, if_false, if_pos h]
  rfl

/-- A table and range with an alias keeps it, and nothing else happens. -/
theorem perform_table_of_hasAlias (hname : Text.isIdentifier table = true)
    (hfits : (aliasOf table range).utf8ByteSize ≤ aliasLimit)
    (h : draft.HasAlias (aliasOf table range)) :
    (QueryDraft.table source locations table range).perform draft =
      (.ok (aliasOf table range), draft) := by
  simp only [QueryDraft.table, hname, Bool.not_true, Bool.false_eq_true, if_false,
    if_neg (Nat.not_lt.mpr hfits)]
  show Action.perform ((get : Action (QueryDraft σ) _) >>= _) draft = _
  rw [Action.perform_get_bind, if_pos (any_scans_eq_true_iff.mpr h)]
  rfl

/-- Otherwise the files are looked for, and a scan is added if they are found. -/
theorem perform_table_of_new {outcome : Outcome (List String)}
    (hname : Text.isIdentifier table = true)
    (hfits : (aliasOf table range).utf8ByteSize ≤ aliasLimit)
    (hnew : ¬ draft.HasAlias (aliasOf table range))
    (h : (source locations table range).perform draft.source = (outcome, after)) :
    (QueryDraft.table source locations table range).perform draft =
      (outcome.map fun _ => aliasOf table range,
        ⟨after, draft.scans ++
          outcome.toOption.toList.map fun files => ⟨aliasOf table range, table, files⟩⟩) := by
  simp only [QueryDraft.table, hname, Bool.not_true, Bool.false_eq_true, if_false,
    if_neg (Nat.not_lt.mpr hfits)]
  show Action.perform ((get : Action (QueryDraft σ) _) >>= _) draft = _
  rw [Action.perform_get_bind, if_neg (any_scans_eq_true_iff.not.mpr hnew)]
  show (resolve source locations table range >>= _).perform draft = _
  cases outcome with
  | ok files => rw [Action.perform_bind_of_ok (perform_resolve h)]; rfl
  | error problem =>
      rw [Action.perform_bind_of_error (perform_resolve h)]
      show _ = (_, (⟨after, draft.scans ++ []⟩ : QueryDraft σ))
      rw [List.append_nil]
      rfl

end QueryDraft

end Rewards
