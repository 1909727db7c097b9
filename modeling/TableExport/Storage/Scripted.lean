import TableExport.Storage.Basic

/-!
# Scripted storages

A storage whose answers are prepared in memory. Each question can be made to fail.
It needs no connection, so closing it changes nothing.
-/
namespace TableExport

/-- A prepared row: one that is still to be decoded, or a finished one. -/
inductive ScriptedRow
  | source (row : RowSource)
  | finished (row : Row)

def ScriptedRow.read (table : TableName) (columns : List Column) :
    ScriptedRow → Except (Fault ExportError) Row
  | .source row => Row.materialize row table.text columns
  | .finished row => .ok row

structure ScriptedTable where
  name : String
  columns : List Column
  rows : List ScriptedRow
  count : Int
  describeFailure : Option ExportError := none
  rowsFailure : Option ExportError := none
  countFailure : Option ExportError := none

structure Script where
  driver : Driver := .sqlite
  tables : List ScriptedTable
  listed : List String
  disabledRules : List DisabledRule := []
  listFailure : Option ExportError := none
  rulesFailure : Option ExportError := none

namespace Script

/-- An answer, unless a failure is prepared. -/
def failingOr {α : Type} (failure : Option ExportError) (answer : Except (Fault ExportError) α) :
    Reply α :=
  match failure with
  | some error => .quiet (.error (.raised error))
  | none => .quiet answer

/-- The answer about a table; a table that is not prepared does not exist. -/
def about {α : Type} (script : Script) (name : TableName) (answer : ScriptedTable → Reply α) :
    Reply α :=
  match script.tables.find? fun table => table.name == name.text with
  | some table => answer table
  | none => .quiet (.error (.raised (.query s!"no table {name.text}" .refused)))

def limited (limit : Option UInt32) (rows : List ScriptedRow) : List ScriptedRow :=
  match Sql.bound limit with
  | some n => rows.take n
  | none => rows

def reply (script : Script) : (call : Call) → Reply call.Answer
  | .listTables => failingOr script.listFailure (TableName.all script.listed)
  | .describe name => script.about name fun table =>
    failingOr table.describeFailure (.ok table.columns)
  | .readRows name columns limit => script.about name fun table =>
    failingOr table.rowsFailure ((limited limit table.rows).mapM (ScriptedRow.read name columns))
  | .countRecords name => script.about name fun table =>
    failingOr table.countFailure (.ok table.count)
  | .disabledRules => failingOr script.rulesFailure (.ok script.disabledRules)
  | .close => .quiet (.ok ())

def storage (script : Script) : Storage := ⟨script.driver, fun _ call => script.reply call⟩

end Script

end TableExport
