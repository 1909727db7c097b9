import TableExport.Error
import TableExport.Text.Padding

/-!
# Table names

A table name is any text but the empty one. Names enter SQL text as quoted
identifiers only.
-/
namespace TableExport

/-- A name in double quotes, with each double quote inside written twice. -/
def quoteIdentifier (name : String) : String :=
  String.ofList ('"' :: (name.toList.flatMap fun c => if c = '"' then ['"', '"'] else [c]) ++ ['"'])

structure TableName where
  text : String
  nonempty : text ≠ ""
  deriving DecidableEq

namespace TableName

/-- Refuses the empty text. -/
def ofText (text : String) : Except ExportError TableName :=
  if h : text = "" then .error (.configuration "table name cannot be empty") else .ok ⟨text, h⟩

def quoted (name : TableName) : String := quoteIdentifier name.text

end TableName

end TableExport
