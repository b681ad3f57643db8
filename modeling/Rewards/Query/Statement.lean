/-
Statements: which rewards a query computes.

A statement groups the rows of a relation by payee.  Only rows in a range of blocks
count, and the ends of the range are parameters.  From the values that one column has
in the rows of a group, and from parameters, it computes the payee's amount: a sum of
products of quantities, or one product that is capped.

The text of a statement is SQL.
-/
import Rewards.Block

namespace Rewards

/-- A number that a group of rows has. -/
inductive Quantity where
  /-- A parameter, which is a double. -/
  | parameter (number : Nat)
  /-- How many rows there are. -/
  | rowCount
  /-- How many different values there are. -/
  | valueCount
  /-- The sum of the values. -/
  | total
deriving DecidableEq

/-- How the amount of a group is computed. -/
inductive Formula where
  /-- The sum of some products, the first one apart. -/
  | sumOf (first : List Quantity) (rest : List (List Quantity))
  /-- A product, or a greatest amount if the product is greater. -/
  | capped (product : List Quantity) (limit : Quantity)
deriving DecidableEq

/-- The amount of each payee in some rows of a relation, ordered by payee. -/
structure Statement where
  /-- The column that the rows are grouped by. -/
  payee : String
  /-- The column whose values are measured. -/
  measured : String
  formula : Formula
  relation : String
  /-- The numbers of the parameters that are the first and the last block. -/
  first : Nat
  last : Nat
deriving DecidableEq

namespace Statement

/-- The column of block numbers. -/
def blockColumn : String := "block_number"

/-- A parameter as a value of an SQL type. -/
def parameterText (number : Nat) (type : String) : String :=
  "CAST($" ++ natText number ++ " AS " ++ type ++ ")"

/-- A quantity in SQL. -/
def quantityText (measured : String) : Quantity → String
  | .parameter number => parameterText number "DOUBLE"
  | .rowCount => "CAST(count(*) AS DOUBLE)"
  | .valueCount => "CAST(count(DISTINCT " ++ measured ++ ") AS DOUBLE)"
  | .total => "sum(CAST(" ++ measured ++ " AS DOUBLE))"

/-- A product in SQL. -/
def productText (measured : String) (factors : List Quantity) : String :=
  " * ".intercalate (factors.map (quantityText measured))

/-- A formula in SQL. -/
def formulaText (measured : String) : Formula → String
  | .sumOf first rest => " + ".intercalate ((first :: rest).map (productText measured))
  | .capped product limit =>
    let product := productText measured product
    let limit := quantityText measured limit
    "CASE WHEN " ++ product ++ " > " ++ limit ++ " THEN " ++ limit ++ " ELSE " ++ product ++ " END"

/-- A statement in SQL. -/
def sql (s : Statement) : String :=
  "SELECT " ++ s.payee ++ " AS payee, " ++ formulaText s.measured s.formula ++ " AS amount FROM " ++
    s.relation ++ " WHERE " ++ blockColumn ++ " BETWEEN " ++ parameterText s.first "BIGINT" ++
    " AND " ++ parameterText s.last "BIGINT" ++ " GROUP BY " ++ s.payee ++ " ORDER BY payee"

end Statement

end Rewards
