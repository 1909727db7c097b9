import Mathlib
import TableExport.Proofs.Csv.Reading
import TableExport.Proofs.Sqlite.Listing
import TableExport.Proofs.Sqlite.Tables

/-!
# Rows and counts

The rows of a table are read under a limit and written one by one, while its records are counted
by a statement of their own. Both come to the same: a run reports and writes as many rows of a
table as it counts, cut off at the limit. The database does not change meanwhile, and it answers
as long as it is open.
-/
namespace TableExport

/-- How many of so many rows a read with this limit gives. Zero is no limit. -/
def Sql.allowed (limit : Option UInt32) (rows : Nat) : Nat :=
  match limit with
  | none => rows
  | some n => if n = 0 then rows else min n.toNat rows

theorem TableName.texts_of_all {names : List String} {tables : List TableName}
    (given : all names = .ok tables) : tables.map text = names := by
  obtain ⟨refused, kept⟩ := all_eq names
  by_cases empty : "" ∈ names
  · rw [refused empty] at given
    cases given
  · obtain ⟨found, same, texts⟩ := kept empty
    rw [same] at given
    cases given
    exact texts

/-! ## Answers in a conversation -/

namespace Database
variable {db : Database} {history : List Call} {call : Call} {answer : call.Answer}

theorem opened_of_ok (other : call ≠ .close)
    (given : (db.storage.reply history call).outcome = .ok answer) : Call.close ∉ history := by
  intro closed
  have refuses : isClosed history call = true := by simp [isClosed, closed, other]
  have replied : (db.reply history call).outcome = .ok answer := given
  simp only [reply, refuses, if_true] at replied
  cases replied

/-- Whatever was asked before, a database that answers a call does so by what it holds. -/
theorem answer_of_gives {exchanges : List Exchange} (gives : db.storage.Gives history exchanges)
    (member : ⟨call, answer⟩ ∈ exchanges) (other : call ≠ .close) :
    (db.answer call).outcome = .ok answer := by
  obtain ⟨front, back, rfl⟩ := List.append_of_mem member
  obtain ⟨given, -⟩ := (Storage.gives_append.mp gives).2
  rw [← reply_open (opened_of_ok other given)]
  exact given

/-- A description that is given has columns. -/
theorem columns_of_describe {name : TableName} {columns : List Column}
    (answered : (db.answer (.describe name)).outcome = .ok columns) : columns ≠ [] := by
  cases held : db.columns name with
  | none =>
    simp only [answer, held] at answered
    cases answered
  | some found =>
    simp only [answer, held, described] at answered
    split at answered
    next => cases answered
    next some_ =>
      cases answered
      simpa using some_

end Database

/-! ## Answers of a SQLite database -/

namespace Sqlite.Catalog
variable {catalog : Catalog} {name : TableName} {table : Table}

theorem length_bounded (limit : Option UInt32) (rows : List (List Stored)) :
    (bounded (Sql.bound limit) rows).length = Sql.allowed limit rows.length := by
  cases limit with
  | none => rfl
  | some n =>
    by_cases zero : n = 0
    · simp [Sql.bound, Sql.allowed, bounded, zero]
    · simp [Sql.bound, Sql.allowed, bounded, zero]

theorem table_of_count {count : Int}
    (answered : (catalog.database.answer (.countRecords name)).outcome = .ok count) :
    ∃ table, catalog.find? name.text = some table ∧ count = table.rows.length := by
  have held : catalog.database.count name =
    (catalog.find? name.text).map fun table => (table.rows.length : Int) := rfl
  cases found : catalog.find? name.text with
  | none =>
    simp only [Database.answer, held, found, Option.map_none] at answered
    cases answered
  | some table =>
    simp only [Database.answer, held, found, Option.map_some] at answered
    cases answered
    exact ⟨table, rfl, rfl⟩

/-- No row is lost, whatever its values are: one that cannot be read ends the read instead. -/
theorem length_of_rows {columns : List Column} {limit : Option UInt32} {rows : List Row}
    (found : catalog.find? name.text = some table)
    (answered : (catalog.database.answer (.readRows name columns limit)).outcome = .ok rows) :
    rows.length = Sql.allowed limit table.rows.length := by
  have read : Database.collect name columns
      ⟨(bounded (Sql.bound limit) table.rows).map (RowSource.ofCells Stored.read), true⟩
      (.readRows name columns limit) = .ok rows := by
    rw [← rows_eq found columns]
    exact answered
  unfold Database.collect at read
  split at read
  next => cases read
  next materialized ended =>
    cases read
    rw [length_of_mapM ended, List.length_map, length_bounded]

/-- The record of a table's count, and how the rows in the summary agree with it. -/
def Counted (catalog : Catalog) (limit : Option UInt32) (entry : TableSummary)
    (record : List String) : Prop :=
  ∃ table, catalog.find? entry.table.text = some table ∧
    record = [entry.table.text, toString table.rows.length] ∧
    entry.rows = Sql.allowed limit table.rows.length

end Sqlite.Catalog

/-- The artifact of a table has a header and as many records as the summary has rows. -/
def TableSummary.Recorded (entry : TableSummary) (artifact : Artifact) : Prop :=
  artifact.name = entry.artifact ∧
    ∃ header records, Csv.readText artifact.body = some (header :: records) ∧
      records.length = entry.rows

section Survey
variable {storage : Storage} {history : List Call} {options : ExportOptions} {survey : Survey}

theorem Survey.exchanges_tables {data : TableData} (member : data ∈ survey.tables) :
    ⟨.describe data.table, data.columns⟩ ∈ survey.exchanges options ∧
      ⟨.readRows data.table data.columns options.limit, data.rows⟩ ∈ survey.exchanges options := by
  have all : data.exchanges options ⊆ survey.exchanges options := by
    intro exchange asked
    simp only [exchanges, List.cons_append, List.mem_cons, List.mem_append]
    exact .inr (.inl (.inl (.inl (List.mem_flatMap.mpr ⟨data, member, asked⟩))))
  exact ⟨all List.mem_cons_self, all (List.mem_cons_of_mem _ List.mem_cons_self)⟩

theorem Survey.exchanges_counts {entry : TableName × Int} (selected : options.metadata = true)
    (member : entry ∈ survey.counts) :
    ⟨.countRecords entry.1, entry.2⟩ ∈ survey.exchanges options := by
  have asked : ⟨.countRecords entry.1, entry.2⟩ ∈ countExchanges survey.counts :=
    List.mem_map_of_mem (f := fun entry : TableName × Int =>
      (⟨.countRecords entry.1, entry.2⟩ : Exchange)) member
  simp only [exchanges, selected, if_true, List.cons_append, List.mem_cons, List.mem_append]
  exact .inr (.inl (.inl (.inr asked)))

/-- Whatever its rows hold, a table with columns has one record for each row. -/
theorem TableData.recorded (options : ExportOptions) {data : TableData}
    (described : data.columns ≠ []) : (data.summary options).Recorded (data.artifact options) := by
  refine ⟨rfl, _, _, Csv.readText_document _ ?_, List.length_map ..⟩
  intro fields member
  obtain rfl | later := List.mem_cons.mp member
  · simpa using described
  · obtain ⟨row, -, rfl⟩ := List.mem_map.mp later
    simpa [Row.project] using described

/-- Each table of the summary has the rows that its artifact has. -/
theorem Survey.tables_recorded {db : Database}
    (gives : db.storage.Gives history (survey.exchanges options)) :
    List.Forall₂ TableSummary.Recorded (survey.summary options).tables
      (survey.tables.map (TableData.artifact options)) := by
  simp only [Survey.summary, List.forall₂_map_left_iff, List.forall₂_map_right_iff,
    List.forall₂_same]
  intro data member
  have described := db.answer_of_gives gives (Survey.exchanges_tables member).1 (by simp)
  exact data.recorded options (Database.columns_of_describe described)

/-- The counts are in the order of the tables, and each is that of the table's name. -/
theorem Survey.tables_counted {catalog : Sqlite.Catalog}
    (gives : catalog.database.storage.Gives history (survey.exchanges options))
    (selected : options.metadata = true) (all : survey.counts.map Prod.fst = survey.names) :
    List.Forall₂ (catalog.Counted options.limit) (survey.summary options).tables
      (countRecords survey.counts) := by
  have paired : List.Forall₂ (· = ·) (survey.tables.map TableData.table)
      (survey.counts.map Prod.fst) := by
    rw [List.forall₂_eq_eq_eq]
    exact all.symm
  rw [List.forall₂_map_left_iff, List.forall₂_map_right_iff] at paired
  obtain ⟨length, each⟩ := List.forall₂_iff_zip.mp paired
  simp only [Survey.summary, countRecords, List.forall₂_map_left_iff, List.forall₂_map_right_iff]
  refine List.forall₂_iff_zip.mpr ⟨length, fun {data entry} member => ?_⟩
  obtain ⟨listed, counted⟩ := List.of_mem_zip member
  have same : data.table = entry.1 := each member
  have answered := Database.answer_of_gives gives (exchanges_counts selected counted) (by simp)
  have read := Database.answer_of_gives gives (exchanges_tables listed).2 (by simp)
  obtain ⟨table, found, count⟩ := Sqlite.Catalog.table_of_count answered
  rw [← same] at found
  refine ⟨table, found, ?_, Sqlite.Catalog.length_of_rows found read⟩
  rw [count, Decimal.integer_eq, ← same]
  rfl

end Survey

theorem readText_metadata (counts : List (TableName × Int)) :
    Csv.readText (Csv.document (metadataHeader :: countRecords counts)) =
      some (metadataHeader :: countRecords counts) := by
  refine Csv.readText_document _ fun fields member => ?_
  obtain rfl | later := List.mem_cons.mp member
  · simp [metadataHeader]
  · obtain ⟨entry, -, rfl⟩ := List.mem_map.mp later
    simp

/-- What is written behind the counts goes to other places. -/
theorem later_apart (target : Target) {options : ExportOptions} {capture : Option Log.Capture}
    {seen : List Log.Event} {rules : List (List String)}
    (captured : options.log = true → capture.isSome = true) :
    ∀ artifact ∈ (if options.disabledRules then [.csv disabledRulesArtifact rules] else []) ++
        logArtifacts options capture seen,
      target.Accepts artifact.name ∧ artifact.name ≠ metadataArtifact := by
  intro artifact member
  have named : artifact.name = disabledRulesArtifact ∨ artifact.name = logArtifact := by
    obtain rule | log := List.mem_append.mp member
    · obtain ⟨-, same⟩ := List.mem_ite_nil_right.mp rule
      exact .inl (congrArg Artifact.name (List.mem_singleton.mp same))
    · have named := List.mem_map_of_mem (f := Artifact.name) log
      rw [map_name_logArtifacts seen captured] at named
      obtain ⟨-, same⟩ := List.mem_ite_nil_right.mp named
      exact .inr (List.mem_singleton.mp same)
  obtain named | named := named
  · rw [named]
    exact ⟨target.accepts_of_isPlain (by decide), by decide⟩
  · rw [named]
    exact ⟨target.accepts_of_isPlain (by decide), by decide⟩

/-! ## Main result -/

/-- If counts are selected, a successful run of a SQLite database writes a record with the count
of each listed table, in the order of the listing. The summary has as many rows of the table, and
its artifact as many records, as the limit leaves of that count. -/
theorem exportDatabase_rows_counted {catalog : Sqlite.Catalog} {target : Target}
    {options : ExportOptions} {capture : Option Log.Capture} {summary : Summary}
    {world world' : World} (selected : options.metadata = true)
    (h : exportDatabase catalog.database.storage target options capture world =
      .ok summary world') :
    ∃ (listing metadata : Artifact) (tables later : List Artifact) (records : List (List String)),
      target.Writes world (listing :: tables ++ metadata :: later) world' ∧
      metadata.name = metadataArtifact ∧
      (target.Exists world.files → target.Holds world' metadata) ∧
      Csv.readText metadata.body = some (metadataHeader :: records) ∧
      summary.tables.map (fun entry => entry.table.text) = catalog.listed ∧
      List.Forall₂ (catalog.Counted options.limit) summary.tables records ∧
      List.Forall₂ TableSummary.Recorded summary.tables tables := by
  obtain ⟨ran, captured⟩ := exportAll_of_exportDatabase h
  obtain ⟨survey, seen, counted, rfl, -, ⟨talks, writes⟩, -⟩ := Run.exportAll_ok captured ran
  have split : survey.artifacts options ++ logArtifacts options capture seen =
      .csv tablesArtifact (tableNamesHeader :: nameRecords survey.names) ::
        survey.tables.map (TableData.artifact options) ++
        .csv metadataArtifact (metadataHeader :: countRecords survey.counts) ::
        ((if options.disabledRules then
          [.csv disabledRulesArtifact (disabledRulesHeader :: ruleRecords survey.rules)] else []) ++
          logArtifacts options capture seen) := by
    simp [Survey.artifacts, selected]
  rw [split] at writes
  refine ⟨_, _, _, _, countRecords survey.counts, writes, rfl, ?_, readText_metadata _, ?_,
    Survey.tables_counted talks.gives selected (counted selected),
    Survey.tables_recorded talks.gives⟩
  · intro here
    have plain : target.Accepts metadataArtifact := target.accepts_of_isPlain (by decide)
    exact writes.holds_apart here plain (later_apart target captured)
  · have listed := @Database.answer_of_gives catalog.database _ .listTables survey.names _
      talks.gives (by simp [Survey.exchanges]) (by simp)
    simpa [Survey.summary, Survey.names, TableData.summary, Function.comp_def] using
      TableName.texts_of_all listed

/-- Rows without a value and rows of an empty text, in a table whose name has a quote in it. -/
def sparseCatalog : Sqlite.Catalog where
  tables := [⟨"a\"b", [("x", "TEXT")], [[.null], [.text []], [.integer 3]]⟩,
    ⟨"c", [("id", "INTEGER")], []⟩]

/-- No more than two rows of each table are exported, and all of them are counted. -/
def firstTwo : ExportOptions where
  limit := some 2
  metadata := true

theorem exportDatabase_rows_counted_sparse :
    firstTwo.metadata = true ∧
    ∃ summary after, exportDatabase sparseCatalog.database.storage (.directory "/out") firstTwo none
        usedDirectory = .ok summary after ∧
      summary.tables.map TableSummary.rows = [2, 0] ∧
      ∃ metadata records, (Target.directory "/out").Holds after metadata ∧
        Csv.readText metadata.body = some (metadataHeader :: records) ∧
        List.Forall₂ (sparseCatalog.Counted (some 2)) summary.tables records := by
  have ran : succeeds (fun summary _ => summary.tables.map TableSummary.rows == [2, 0])
      (exportDatabase sparseCatalog.database.storage (.directory "/out") firstTwo none
        usedDirectory) = true := by
    cbv
  have here : (Target.directory "/out").Exists usedDirectory.files := by
    unfold Target.Exists
    cbv
  obtain ⟨summary, after, h, rows⟩ := ok_of_succeeds ran
  obtain ⟨listing, metadata, tables, later, records, -, -, held, read, -, counted, -⟩ :=
    exportDatabase_rows_counted rfl h
  exact ⟨rfl, summary, after, h, by simpa using rows, metadata, records, held here, read, counted⟩

end TableExport
