import TableExport.Export.Projection
import TableExport.Export.Summary
import TableExport.Log.Capture
import TableExport.Target.Basic

/-!
# The export run

Tables are exported one at a time in the order of the listing, then the other
selected artifacts. The first failure ends the run; artifacts completed before it
stay in place.
-/
namespace TableExport

/-- What to export besides the tables. -/
structure ExportOptions where
  limit : Option UInt32 := none
  tablePrefix : String := ""
  metadata : Bool := false
  disabledRules : Bool := false
  log : Bool := false
  deriving DecidableEq, Repr

namespace Run

/-- Opens a sink, writes an artifact into it and completes it. -/
def artifact {α : Type} (outlet : Outlet) (name : String) (steps : Writing α) : Run α := do
  let sink ← outlet.openSink name .csv
  let (result, sink) ← writing sink steps
  outlet.commit sink
  pure result

/-- Reports the listed tables, counted from `index`. -/
def reportTables : Nat → List TableName → Run Unit
  | _, [] => pure ()
  | index, table :: rest => do
    report ⟨.info, Log.runTarget, "Table in database",
      [("index", .number index), ("table", .shown table.text)]⟩
    reportTables (index + 1) rest

def exportTables (storage : Storage) (outlet : Outlet) (options : ExportOptions) :
    List TableName → Run (List TableSummary)
  | [] => pure []
  | table :: rest => do
    let name := tableArtifact options.tablePrefix table
    let rows ← artifact outlet name (Project.table storage table options.limit)
    report ⟨.info, Log.runTarget, "Table exported",
      [("table", .shown table.text), ("rows", .number rows), ("artifact", .shown name)]⟩
    let later ← exportTables storage outlet options rest
    pure (⟨table, name, rows⟩ :: later)

/-- An artifact that is only written when selected; gives the names written. -/
def optional (selected : Bool) (name : String) (steps : Run Unit) : Run (List String) :=
  if selected then do
    steps
    pure [name]
  else pure []

/-- Exports all data and closes the storage. -/
def exportData (storage : Storage) (outlet : Outlet) (options : ExportOptions) : Run Summary := do
  let tables ← ask storage .listTables
  report ⟨.info, Log.runTarget, "List of tables", [("count", .number tables.length)]⟩
  reportTables 1 tables
  artifact outlet tablesArtifact (Project.tableNames tables)
  let summaries ← exportTables storage outlet options tables
  let metadata ← optional options.metadata metadataArtifact
    (artifact outlet metadataArtifact (Project.tableMetadata storage tables))
  let rules ← optional options.disabledRules disabledRulesArtifact
    (artifact outlet disabledRulesArtifact (Project.disabledRules storage))
  ask storage .close
  let summary : Summary := ⟨summaries, tablesArtifact :: metadata ++ rules⟩
  report ⟨.info, Log.runTarget, "Export finished",
    [("tables", .number summaries.length), ("rows", .number summary.totalRows)]⟩
  pure summary

/-- Stores the log of the run so far, if it is selected. -/
def exportLog (outlet : Outlet) (options : ExportOptions) (capture : Option Log.Capture)
    (summary : Summary) : Run Summary :=
  match capture.filter fun _ => options.log with
  | some capture => do
    outlet.store logArtifact .text (capture.contents (← get).log)
    pure ⟨summary.tables, summary.artifacts ++ [logArtifact]⟩
  | none => pure summary

/-- The steps of a run once its options are known to make sense. -/
def exportAll (storage : Storage) (outlet : Outlet) (options : ExportOptions)
    (capture : Option Log.Capture) : Run Summary := do
  let summary ← exportData storage outlet options
  exportLog outlet options capture summary

end Run

/-- The refusal of a run that is to export a log nobody captured. -/
def uncapturedLog : ExportError :=
  .configuration "log export requested but log capture is not enabled"

/-- Exports every table and the selected other artifacts. A log can only be exported
if it was captured; that is checked before anything is done. -/
def exportTo (storage : Storage) (outlet : Outlet) (options : ExportOptions)
    (capture : Option Log.Capture) : Run Summary :=
  if options.log && capture.isNone then
    Run.fail uncapturedLog
  else Run.exportAll storage outlet options capture

/-- Exports a database to a target. -/
def exportDatabase (storage : Storage) (target : Target) (options : ExportOptions)
    (capture : Option Log.Capture) : Run Summary :=
  exportTo storage target.outlet options capture

end TableExport
