import TableExport.Proofs.Export.Parts
import TableExport.Proofs.Export.Projections
import TableExport.Proofs.Target.Contents

/-!
# What a run shows of a storage

A survey is everything that a storage tells an export. From it follow the parts of the
run: the questions asked, the artifacts written, each in order. The summary follows too.
-/
namespace TableExport

structure TableData where
  table : TableName
  columns : List Column
  rows : List Row

/-- The names of the artifacts that are written after the tables. -/
def selectedNames (options : ExportOptions) : List String :=
  (if options.metadata then [metadataArtifact] else []) ++
    (if options.disabledRules then [disabledRulesArtifact] else []) ++
    (if options.log then [logArtifact] else [])

/-- The names of all artifacts of a run, in the order in which they are written. -/
def artifactNames (options : ExportOptions) (tables : List TableName) : List String :=
  tablesArtifact :: tables.map (tableArtifact options.tablePrefix) ++ selectedNames options

/-- The answers of a storage to an export. -/
structure Survey where
  tables : List TableData
  counts : List (TableName × Int)
  rules : List DisabledRule

def Artifact.csv (name : String) (records : List (List String)) : Artifact :=
  ⟨name, .csv, Csv.document records⟩

namespace TableData

def exchanges (options : ExportOptions) (data : TableData) : List Exchange :=
  tableExchanges data.table options.limit data.columns data.rows

def artifact (options : ExportOptions) (data : TableData) : Artifact :=
  .csv (tableArtifact options.tablePrefix data.table)
    (data.columns.map Column.name :: rowRecords data.columns data.rows)

def summary (options : ExportOptions) (data : TableData) : TableSummary :=
  ⟨data.table, tableArtifact options.tablePrefix data.table, data.rows.length⟩

def part (options : ExportOptions) (data : TableData) : Part :=
  .storing (tableArtifact options.tablePrefix data.table) .csv
    (tableItems data.table options.limit data.columns data.rows)

theorem exchanges_part (options : ExportOptions) (data : TableData) :
    (data.part options).exchanges = data.exchanges options := Item.exchanges_table ..

theorem artifacts_part (options : ExportOptions) (data : TableData) :
    (data.part options).artifacts = [data.artifact options] := by
  simp [part, artifact, Part.artifacts, Artifact.csv, Item.body_table]

end TableData

namespace Survey

def names (survey : Survey) : List TableName := survey.tables.map TableData.table

/-- What was asked, with the answers, in the order of the run. -/
def exchanges (survey : Survey) (options : ExportOptions) : List Exchange :=
  -- writing the list of tables asks nothing
  ⟨.listTables, survey.names⟩ :: survey.tables.flatMap (TableData.exchanges options) ++
    (if options.metadata then countExchanges survey.counts else []) ++
    (if options.disabledRules then ruleExchanges survey.rules else []) ++ [⟨.close, ()⟩]

/-- The artifacts in the order in which they are written, but for the log. -/
def artifacts (survey : Survey) (options : ExportOptions) : List Artifact :=
  .csv tablesArtifact (tableNamesHeader :: nameRecords survey.names) ::
    survey.tables.map (TableData.artifact options) ++
    (if options.metadata then
      [.csv metadataArtifact (metadataHeader :: countRecords survey.counts)] else []) ++
    (if options.disabledRules then
      [.csv disabledRulesArtifact (disabledRulesHeader :: ruleRecords survey.rules)] else [])

/-- The parts of a run up to the closing of the storage. -/
def parts (survey : Survey) (options : ExportOptions) : List Part :=
  .asking ⟨.listTables, survey.names⟩ ::
    .storing tablesArtifact .csv (listingItems tableNamesHeader (nameRecords survey.names)) ::
    survey.tables.map (TableData.part options) ++
    (if options.metadata then [.storing metadataArtifact .csv (metadataItems survey.counts)] else []) ++
    (if options.disabledRules then
      [.storing disabledRulesArtifact .csv (ruleItems survey.rules)] else [])

theorem exchanges_parts (survey : Survey) (options : ExportOptions) :
    (survey.parts options).flatMap Part.exchanges ++ [⟨.close, ()⟩] = survey.exchanges options := by
  have tables : (survey.tables.map (TableData.part options)).flatMap Part.exchanges =
      survey.tables.flatMap (TableData.exchanges options) := by
    simp [List.flatMap_map, TableData.exchanges_part]
  unfold parts exchanges
  cases options.metadata <;> cases options.disabledRules <;>
    simp [tables, Part.exchanges, Item.exchanges_listing, Item.exchanges_metadata,
      Item.exchanges_rules]

theorem artifacts_parts (survey : Survey) (options : ExportOptions) :
    (survey.parts options).flatMap Part.artifacts = survey.artifacts options := by
  have tables : (survey.tables.map (TableData.part options)).flatMap Part.artifacts =
      survey.tables.map (TableData.artifact options) := by
    simp [List.flatMap_map, TableData.artifacts_part, ← List.map_eq_flatMap]
  unfold parts artifacts
  cases options.metadata <;> cases options.disabledRules <;>
    simp [tables, Part.artifacts, Artifact.csv, Item.body_listing, Item.body_metadata,
      Item.body_rules]

/-- The storage answers the questions of a run with this survey. All listed tables are
counted, if any is. -/
structure TakenFrom (survey : Survey) (storage : Storage) (history : List Call)
    (options : ExportOptions) : Prop where
  gives : storage.Gives history (survey.exchanges options)
  counted : options.metadata = true → survey.counts.map Prod.fst = survey.names

def summary (survey : Survey) (options : ExportOptions) : Summary where
  tables := survey.tables.map (TableData.summary options)
  artifacts := tablesArtifact :: selectedNames options

end Survey

/-- An artifact that is stored in one step. -/
def Artifact.part (artifact : Artifact) : Part :=
  .storing artifact.name artifact.contentType [.wrote artifact.body]

/-- All parts of a run that stores this log at the end. -/
def Survey.run (survey : Survey) (options : ExportOptions) (log : List Artifact) : List Part :=
  survey.parts options ++ .asking ⟨.close, ()⟩ :: log.map Artifact.part

theorem Survey.exchanges_run (survey : Survey) (options : ExportOptions) (log : List Artifact) :
    (survey.run options log).flatMap Part.exchanges = survey.exchanges options := by
  have silent : (log.map Artifact.part).flatMap Part.exchanges = [] := by
    simp [List.flatMap_map, Artifact.part, Part.exchanges]
  rw [← survey.exchanges_parts, run, List.flatMap_append, List.flatMap_cons, silent]
  rfl

theorem Survey.artifacts_run (survey : Survey) (options : ExportOptions) (log : List Artifact) :
    (survey.run options log).flatMap Part.artifacts = survey.artifacts options ++ log := by
  have stored : (log.map Artifact.part).flatMap Part.artifacts = log := by
    simp [List.flatMap_map, Artifact.part, Part.artifacts]
  rw [← survey.artifacts_parts, run, List.flatMap_append, List.flatMap_cons, stored]
  rfl

/-- The log as an artifact, when these events have been reported. -/
def logArtifacts (options : ExportOptions) (capture : Option Log.Capture)
    (seen : List Log.Event) : List Artifact :=
  match capture, options.log with
  | some capture, true => [⟨logArtifact, .text, capture.contents seen⟩]
  | _, _ => []

theorem logArtifacts_silent {options : ExportOptions} (silent : options.log = false)
    (capture : Option Log.Capture) (seen : List Log.Event) :
    logArtifacts options capture seen = [] := by
  unfold logArtifacts
  rw [silent]
  cases capture <;> rfl

theorem map_name_logArtifacts {options : ExportOptions} {capture : Option Log.Capture}
    (seen : List Log.Event) (captured : options.log = true → capture.isSome = true) :
    (logArtifacts options capture seen).map Artifact.name =
      if options.log then [logArtifact] else [] := by
  unfold logArtifacts
  cases selected : options.log with
  | false => simp
  | true =>
    obtain ⟨log, rfl⟩ := Option.isSome_iff_exists.mp (captured selected)
    rfl

/-- The artifacts of a run have the names that its options and its tables give. -/
theorem Survey.map_name_artifacts (survey : Survey) {options : ExportOptions}
    {capture : Option Log.Capture} (seen : List Log.Event)
    (captured : options.log = true → capture.isSome = true) :
    (survey.artifacts options ++ logArtifacts options capture seen).map Artifact.name =
      artifactNames options survey.names := by
  rw [List.map_append, map_name_logArtifacts seen captured]
  unfold artifacts artifactNames selectedNames names
  cases options.metadata <;> cases options.disabledRules <;>
    simp [Artifact.csv, TableData.artifact, Function.comp_def]

/-- What is true of the fixed names and of those of the tables is true of all names of a run. -/
theorem forall_mem_artifactNames {holds : String → Prop} {options : ExportOptions}
    {tables : List TableName} (listing : holds tablesArtifact) (metadata : holds metadataArtifact)
    (rules : holds disabledRulesArtifact) (log : holds logArtifact)
    (each : ∀ table ∈ tables, holds (tableArtifact options.tablePrefix table)) :
    ∀ name ∈ artifactNames options tables, holds name := by
  intro name member
  simp only [artifactNames, selectedNames, List.cons_append, List.mem_cons, List.mem_append,
    List.mem_map, List.mem_ite_nil_right, List.not_mem_nil, or_false] at member
  rcases member with rfl | ⟨table, listed, rfl⟩ | (⟨-, rfl⟩ | ⟨-, rfl⟩) | ⟨-, rfl⟩
  · exact listing
  · exact each table listed
  · exact metadata
  · exact rules
  · exact log

/-- A target accepts all names of a run if it accepts those of the tables. -/
theorem accepts_artifactNames {target : Target} {options : ExportOptions} {tables : List TableName}
    (accepts : ∀ table ∈ tables, target.Accepts (tableArtifact options.tablePrefix table)) :
    ∀ name ∈ artifactNames options tables, target.Accepts name := by
  apply forall_mem_artifactNames
  · exact target.accepts_of_isPlain (by decide)
  · exact target.accepts_of_isPlain (by decide)
  · exact target.accepts_of_isPlain (by decide)
  · exact target.accepts_of_isPlain (by decide)
  · exact accepts

theorem Survey.accepts_artifacts (survey : Survey) {target : Target} {options : ExportOptions}
    {capture : Option Log.Capture} (seen : List Log.Event)
    (captured : options.log = true → capture.isSome = true)
    (accepts : ∀ table ∈ survey.names, target.Accepts (tableArtifact options.tablePrefix table)) :
    ∀ artifact ∈ survey.artifacts options ++ logArtifacts options capture seen,
      target.Accepts artifact.name := by
  intro artifact member
  apply accepts_artifactNames accepts
  rw [← survey.map_name_artifacts seen captured]
  exact List.mem_map_of_mem member

end TableExport
