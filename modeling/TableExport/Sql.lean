import TableExport.Table.Column
import TableExport.Table.Name

/-!
# SQL statements

The texts of the statements that the export sends. Names stand in them only as
quoted identifiers.
-/
namespace TableExport.Sql

/-- Asks for a table's columns. -/
def probe (table : TableName) : String := "SELECT * FROM " ++ table.quoted ++ " LIMIT 1"

/-- The bound of a read. Zero, like no limit, reads the whole table. -/
def bound (limit : Option UInt32) : Option Nat :=
  match limit with
  | some n => if n = 0 then none else some n.toNat
  | none => none

def select (items : String) (table : TableName) (limit : Option UInt32) : String :=
  let all := "SELECT " ++ items ++ " FROM " ++ table.quoted
  match bound limit with
  | some n => all ++ " LIMIT " ++ Nat.repr n
  | none => all

def selectAll (table : TableName) (limit : Option UInt32) : String := select "*" table limit

def count (table : TableName) : String := "SELECT count(*) FROM " ++ table.quoted

/-- Counts by how many records each rule is disabled, most often first. -/
def disabledRules : String :=
  "SELECT rule_id, count(rule_id) AS rule_count FROM rule_disable GROUP BY rule_id " ++
  "HAVING count(rule_id)>1 ORDER BY rule_count DESC"

end TableExport.Sql
