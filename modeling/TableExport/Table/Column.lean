/-!
# Columns

A column is its name and the name that the database gives to its type. The type
name decides which kind of value is asked for.
-/
namespace TableExport

/-- The kinds of values that a column can be read as. -/
inductive ScanKind
  -- Any scalar, as text.
  | text
  | bool
  | int64
  | float64
  | int32
  deriving DecidableEq, Repr

structure Column where
  name : String
  typeName : String
  deriving DecidableEq, Repr

/-- The kind asked for by type name. Names are compared exactly; all but two
types are read as text. -/
def ScanKind.ofTypeName (typeName : String) : ScanKind :=
  if typeName = "BOOL" then .bool else if typeName = "INT4" then .int64 else .text

/-- The kind asked for when the column is read. -/
def Column.kind (column : Column) : ScanKind := .ofTypeName column.typeName

end TableExport
