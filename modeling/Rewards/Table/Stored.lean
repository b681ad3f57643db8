/-
Stored tables: tables as a query finds them.

A query is given paths.  A path stands for files, which may be none or several, and
each of them should hold a table.  Tables that are read together have common types:
columns of one name are of one type in all of them.
-/
import Rewards.Table.Column

namespace Rewards

/-- A file that is read as a table. -/
structure StoredTable where
  path : String
  /-- The columns, if the file can be read as a table. -/
  columns : Option (List Column)
deriving DecidableEq

/-- The files that a path stands for, if it is fit to be one. -/
abbrev TableReader := String → Option (List StoredTable)

/-- The names and types of columns. -/
abbrev ColumnTypes := List (String × ColumnType)

namespace ColumnTypes

/-- Types with that of one more column, which must be the one that its name has already. -/
def add? (types : ColumnTypes) (column : Column) : Option ColumnTypes :=
  match types.lookup column.name with
  | none => some (types ++ [(column.name, column.type)])
  | some type => if type = column.type then some types else none

/-- The types that the columns of some tables have in common. -/
def common? (tables : List (List Column)) : Option ColumnTypes :=
  tables.flatten.foldlM add? []

end ColumnTypes

end Rewards
