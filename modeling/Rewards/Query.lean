/-
Queries, and how the files that they read are collected.

A query is a statement and the scans that the relations in it stand for.  While a
query is drafted, each table and range that it needs gets an alias, which is the name
of the relation: the table, the first block and the last.  A table and range that has
an alias already keeps it, and its files are not looked for again.  Only lower-case
identifiers name tables and an alias has at most 63 bytes, so an alias can stand in
the text of a statement as it is.
-/
import Rewards.Partition.Store
import Rewards.Text.Form

namespace Rewards

/-- A relation of a query: its name, the table and the files that are read. -/
structure Scan where
  relation : String
  table : String
  /-- The files in the order of their partitions. -/
  files : List String
deriving DecidableEq

/-- A statement and the scans of its relations. -/
structure Query (Statement : Type) where
  statement : Statement
  scans : List Scan
deriving DecidableEq

/-- The scan that a relation stands for. -/
def Query.scan? {Statement : Type} (query : Query Statement) (relation : String) : Option Scan :=
  query.scans.find? (fun s => s.relation == relation)

/-- The scans collected so far, and the state of where files are looked for. -/
structure QueryDraft (σ : Type) where
  source : σ
  scans : List Scan

namespace QueryDraft

/-- The greatest number of bytes in an alias. -/
def aliasLimit : Nat := 63

/-- The alias of a table and a range. -/
def aliasOf (table : String) (range : BlockRange) : String :=
  table ++ "_" ++ wordText range.first ++ "_" ++ wordText range.last

/-- Look for the files of a table and a range. -/
def resolve {σ : Type} (source : PartitionSource σ) (locations : Dictionary String)
    (table : String) (range : BlockRange) : Action (QueryDraft σ) (List String) :=
  fun draft =>
    let (files, after) := (source locations table range).perform draft.source
    (files, { draft with source := after })

/-- Add a table and a range to the draft, and name the relation that they are. -/
def table {σ : Type} (source : PartitionSource σ) (locations : Dictionary String)
    (table : String) (range : BlockRange) : Action (QueryDraft σ) String := do
  if !Text.isIdentifier table then
    throw (.configuration ("invalid table name '" ++ table ++ "': expected a lowercase identifier"))
  let relation := aliasOf table range
  if aliasLimit < relation.utf8ByteSize then
    throw (.configuration ("table name '" ++ table ++ "' is too long to alias"))
  if (← get).scans.any (fun s => s.relation == relation) then return relation
  let files ← resolve source locations table range
  modify fun draft => { draft with scans := draft.scans ++ [⟨relation, table, files⟩] }
  return relation

/-- The query of a statement over the scans of the draft. -/
def finish {σ Statement : Type} (draft : QueryDraft σ) (statement : Statement) : Query Statement :=
  ⟨statement, draft.scans⟩

end QueryDraft

/-- Draft a query: name its relations, and put the names into a statement. -/
def draftQuery {σ Statement : Type} (statement : Action (QueryDraft σ) Statement) :
    Action σ (Query Statement) :=
  fun state =>
    let (outcome, draft) := statement.perform ⟨state, []⟩
    (outcome.map draft.finish, draft.source)

end Rewards
