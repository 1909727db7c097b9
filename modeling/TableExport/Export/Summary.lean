import TableExport.Decimal.Digits
import TableExport.Table.Name

/-!
# Export summaries

What a successful run exported, and its text as an aligned table. The first column
is as wide as the longest name in bytes, and is filled up in characters. A name that
is longer than a field can be wide cannot be printed.
-/
namespace TableExport

structure TableSummary where
  table : TableName
  artifact : String
  rows : Nat
  deriving DecidableEq

/-- All exported tables, and the other artifacts in the order they were written. -/
structure Summary where
  tables : List TableSummary := []
  artifacts : List String := []
  deriving DecidableEq

namespace Summary

/-- The sum of all counts. It is taken to fit into 64 bits, as it does for a billion tables with
counts of up to ten digits. -/
def totalRows (s : Summary) : Nat := s.tables.foldr (fun entry total => entry.rows + total) 0

def nameWidth (s : Summary) : Nat :=
  (s.tables.map fun entry => entry.table.text.utf8ByteSize).foldl max 5

/-- Name, rows and artifact as one line. -/
def line (width : Nat) (name rows artifact : String) : String :=
  Text.padEnd width name ++ "  " ++ Text.padStart 10 rows ++ "  " ++ artifact ++ "\n"

/-- A header, a line per table, and the totals. -/
def text (s : Summary) : String :=
  line s.nameWidth "Table" "Rows" "Artifact" ++
    String.join (s.tables.map fun entry =>
      line s.nameWidth entry.table.text (Decimal.natural entry.rows) entry.artifact) ++
    Decimal.natural s.tables.length ++ " tables, " ++ Decimal.natural s.totalRows ++
    " rows exported\n"

/-- The text as it is printed. A column of names that is too wide ends the process. -/
def printed (s : Summary) : Except (Fault ExportError) String :=
  if s.nameWidth ≤ Text.greatestWidth then .ok s.text else .error .crash

end Summary

end TableExport
