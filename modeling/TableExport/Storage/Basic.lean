import TableExport.Log.Event
import TableExport.Settings.Basic
import TableExport.Sql
import TableExport.Table.Row

/-!
# Storages

A storage is what an export reads from. It answers five questions and can be
closed. Its answers may depend on everything that was asked before, so a storage
is a function from the calls so far and the present one to a reply. Nothing is
assumed about it.
-/
namespace TableExport

structure DisabledRule where
  rule : String
  count : Int
  deriving DecidableEq, Repr

/-- What a storage can be asked. -/
inductive Call
  | listTables
  | describe (table : TableName)
  | readRows (table : TableName) (columns : List Column) (limit : Option UInt32)
  | countRecords (table : TableName)
  | disabledRules
  | close
  deriving DecidableEq

/-- What is answered to a call that succeeds. -/
abbrev Call.Answer : Call → Type
  | .listTables => List TableName
  | .describe _ => List Column
  | .readRows _ _ _ => List Row
  | .countRecords _ => Int
  | .disabledRules => List DisabledRule
  | .close => Unit

/-- What the export was doing when a call failed. -/
def Call.context : Call → String
  | .listTables => "Failed to read list of tables"
  | .describe table => s!"Failed to describe table '{table.text}'"
  | .readRows table _ _ => s!"Failed to read rows of table '{table.text}'"
  | .countRecords table => s!"Failed to count records in '{table.text}'"
  | .disabledRules => "Failed to read disabled rules"
  | .close => "Failed to close"

/-- The outcome of a call and what was logged on the way. -/
structure Reply (α : Type) where
  events : List Log.Event
  outcome : Except (Fault ExportError) α

/-- A reply that logs nothing. -/
def Reply.quiet {α : Type} (outcome : Except (Fault ExportError) α) : Reply α := ⟨[], outcome⟩

def Reply.refused {α : Type} (call : Call) : Reply α :=
  .quiet (.error (.raised (.query call.context .refused)))

/-- Something that can be exported. -/
structure Storage where
  driver : Driver
  reply : List Call → (call : Call) → Reply call.Answer

/-- The names of listed tables; an empty one is refused. -/
def TableName.all (names : List String) : Except (Fault ExportError) (List TableName) :=
  match names.mapM TableName.ofText with
  | .ok tables => .ok tables
  | .error e => .error (.raised e)

end TableExport
