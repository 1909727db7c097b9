import Mathlib
import TableExport.Proofs.Export.Surveys
import TableExport.Storage.Scripted

/-!
# Runs

A run goes through the parts that a survey of its storage gives, until one of them breaks. If
none does, the artifacts that show the survey are laid over the content of the target, and the
summary is that of what was written.
-/
namespace TableExport

namespace Run
variable {storage : Storage} {outlet : Outlet} {options : ExportOptions}

/-! ## Steps and their parts -/

theorem reportTables_follows (storage : Storage) (outlet : Outlet) (index : Nat)
    (tables : List TableName) :
    (Part.course storage outlet).Follows (reportTables index tables) (.only []) := by
  induction tables generalizing index with
  | nil => exact (Course.Follows.pure ()).mono fun planned => planned.2
  | cons table rest ih =>
    refine ((report_follows storage outlet _).bind fun _ => ih (index + 1)).mono ?_
    rintro _ _ ⟨_, _, _, rfl, rfl, rfl⟩
    rfl

/-- Tables are exported one by one, in the order in which they are given. -/
theorem exportTables_follows (storage : Storage) (proper : outlet.Proper) (options : ExportOptions)
    (tables : List TableName) :
    (Part.course storage outlet).Follows (exportTables storage outlet options tables)
      fun summaries parts => ∃ found : List TableData, found.map TableData.table = tables ∧
        summaries = found.map (TableData.summary options) ∧
        parts = found.map (TableData.part options) := by
  induction tables with
  | nil =>
    refine (Course.Follows.pure []).mono ?_
    rintro _ _ ⟨rfl, rfl⟩
    exact ⟨[], rfl, rfl, rfl⟩
  | cons table rest ih =>
    have one := artifact_follows proper (tableArtifact options.tablePrefix table)
      (Project.table_follows storage table options.limit)
      (by
        rintro _ _ ⟨columns, rows, -, rfl⟩
        exact Item.flushed_table ..)
      (Writing.run_guarded_tidy _ _)
    refine (one.bind fun rows => (report_follows storage outlet _).bind fun _ =>
      ih.bind fun later => .pure _).mono ?_
    rintro _ _ ⟨n, _, _, ⟨items, ⟨columns, rows, rfl, rfl⟩, rfl⟩, ⟨_, _, _, rfl,
      ⟨_, _, _, ⟨found, rfl, rfl, rfl⟩, ⟨rfl, rfl⟩, rfl⟩, rfl⟩, rfl⟩
    exact ⟨⟨table, columns, rows⟩ :: found, rfl, rfl, by simp [TableData.part]⟩

/-- An artifact that is not selected has no parts. -/
theorem optional_follows {steps : Run Unit} {plan : Plan Part Unit} (selected : Bool)
    (name : String) (follows : (Part.course storage outlet).Follows steps plan) :
    (Part.course storage outlet).Follows (optional selected name steps) fun written parts =>
      written = (if selected then [name] else []) ∧
        if selected then plan () parts else parts = [] := by
  cases selected with
  | true =>
    refine (follows.bind fun _ => .pure _).mono ?_
    rintro _ _ ⟨_, _, _, planned, ⟨rfl, rfl⟩, rfl⟩
    exact ⟨rfl, by simpa using planned⟩
  | false =>
    refine (Course.Follows.pure _).mono ?_
    rintro _ _ ⟨rfl, rfl⟩
    exact ⟨rfl, rfl⟩

theorem tableNames_follows (storage : Storage) (proper : outlet.Proper) (tables : List TableName) :
    (Part.course storage outlet).Follows
      (artifact outlet tablesArtifact (Project.tableNames tables))
      (.only [.storing tablesArtifact .csv (listingItems tableNamesHeader (nameRecords tables))]) := by
  refine (artifact_follows proper _ (Project.tableNames_follows storage tables) ?_
    (Writing.guarded_tidy _)).mono ?_
  · rintro _ _ rfl
    exact Item.flushed_listing ..
  · rintro _ _ ⟨_, rfl, rfl⟩
    rfl

/-- What is not selected is not asked for, so any counts will do then. -/
theorem metadata_follows (storage : Storage) (proper : outlet.Proper) (selected : Bool)
    (tables : List TableName) :
    (Part.course storage outlet).Follows
      (optional selected metadataArtifact
        (artifact outlet metadataArtifact (Project.tableMetadata storage tables)))
      fun written parts => ∃ counts : List (TableName × Int),
        (selected = true → counts.map Prod.fst = tables) ∧
        written = (if selected then [metadataArtifact] else []) ∧
        parts = if selected then
          [.storing metadataArtifact .csv (metadataItems counts)] else [] := by
  refine (optional_follows selected _ (artifact_follows proper _
    (Project.tableMetadata_follows storage tables) ?_ (Writing.guarded_tidy _))).mono ?_
  · rintro _ _ ⟨found, -, rfl⟩
    exact Item.flushed_metadata found
  · rintro _ _ ⟨rfl, planned⟩
    cases selected with
    | true =>
      obtain ⟨_, ⟨counts, named, rfl⟩, rfl⟩ := planned
      exact ⟨counts, fun _ => named, rfl, rfl⟩
    | false => exact ⟨[], nofun, rfl, planned⟩

theorem disabledRules_follows (storage : Storage) (proper : outlet.Proper) (selected : Bool) :
    (Part.course storage outlet).Follows
      (optional selected disabledRulesArtifact
        (artifact outlet disabledRulesArtifact (Project.disabledRules storage)))
      fun written parts => ∃ rules,
        written = (if selected then [disabledRulesArtifact] else []) ∧
        parts = if selected then
          [.storing disabledRulesArtifact .csv (ruleItems rules)] else [] := by
  refine (optional_follows selected _ (artifact_follows proper _
    (Project.disabledRules_follows storage) ?_ (Writing.run_guarded_tidy _ _))).mono ?_
  · rintro _ _ ⟨rules, rfl⟩
    exact Item.flushed_rules rules
  · rintro _ _ ⟨rfl, planned⟩
    cases selected with
    | true =>
      obtain ⟨_, ⟨rules, rfl⟩, rfl⟩ := planned
      exact ⟨rules, rfl, rfl⟩
    | false => exact ⟨[], rfl, planned⟩

/-- All tables are listed, exported, and counted if that is selected. The storage is closed
at the end. -/
theorem exportData_follows (storage : Storage) (proper : outlet.Proper) (options : ExportOptions) :
    (Part.course storage outlet).Follows (exportData storage outlet options)
      fun summary parts => ∃ survey : Survey,
        (options.metadata = true → survey.counts.map Prod.fst = survey.names) ∧
        summary = ⟨survey.tables.map (TableData.summary options),
          tablesArtifact :: (if options.metadata then [metadataArtifact] else []) ++
            if options.disabledRules then [disabledRulesArtifact] else []⟩ ∧
        parts = survey.parts options ++ [.asking ⟨.close, ()⟩] := by
  unfold exportData
  -- listed, reported, named, exported, counted, ruled, closed, reported
  refine Course.Follows.mono ((ask_follows storage outlet _).bind fun tables =>
    (report_follows storage outlet _).bind fun _ =>
    (reportTables_follows storage outlet 1 tables).bind fun _ =>
    (tableNames_follows storage proper tables).bind fun _ =>
    (exportTables_follows storage proper options tables).bind fun _ =>
    (metadata_follows storage proper options.metadata tables).bind fun _ =>
    (disabledRules_follows storage proper options.disabledRules).bind fun _ =>
    (ask_follows storage outlet _).bind fun _ =>
    (report_follows storage outlet _).bind fun _ => .pure _) ?_
  rintro _ _ ⟨tables, _, _, rfl, ⟨_, _, _, rfl, ⟨_, _, _, rfl, ⟨_, _, _, rfl,
    ⟨_, _, _, ⟨found, named, rfl, rfl⟩, ⟨_, _, _, ⟨counts, all, rfl, rfl⟩,
    ⟨_, _, _, ⟨rules, rfl, rfl⟩, ⟨_, _, _, rfl, ⟨_, _, _, rfl, last, rfl⟩, rfl⟩, rfl⟩, rfl⟩,
    rfl⟩, rfl⟩, rfl⟩, rfl⟩, rfl⟩
  obtain ⟨rfl, rfl⟩ := last
  refine ⟨⟨found, counts, rules⟩, fun selected => (all selected).trans named.symm, rfl, ?_⟩
  simp [Survey.parts, Survey.names, named]

theorem get_follows (storage : Storage) (outlet : Outlet) :
    (Part.course storage outlet).Follows (get : Run World) (.only []) where
  possible := ⟨⟨⟨[], []⟩, [], 0, [], []⟩, [], rfl⟩
  ok _ h := by
    obtain ⟨rfl, rfl⟩ := get_ok h
    exact ⟨[], rfl, (Part.course storage outlet).refl trivial⟩
  error _ h := by cases h

/-- The log has the events up to now. -/
theorem exportLog_follows (storage : Storage) (proper : outlet.Proper) (options : ExportOptions)
    (capture : Option Log.Capture) (summary : Summary) :
    (Part.course storage outlet).Follows (exportLog outlet options capture summary)
      fun _ parts => ∃ seen, parts = (logArtifacts options capture seen).map Artifact.part := by
  unfold exportLog
  split
  next log selected =>
    refine ((get_follows storage outlet).bind fun world =>
      (Outlet.store_follows storage proper _ _ _).bind fun _ => .pure _).mono ?_
    rintro _ _ ⟨world, _, _, rfl, ⟨_, _, _, rfl, ⟨rfl, rfl⟩, rfl⟩, rfl⟩
    obtain ⟨rfl, set⟩ := Option.filter_eq_some_iff.mp selected
    exact ⟨world.log, by simp [logArtifacts, set, Artifact.part]⟩
  next none =>
    refine (Course.Follows.pure _).mono ?_
    rintro _ _ ⟨rfl, rfl⟩
    refine ⟨[], ?_⟩
    unfold logArtifacts
    split
    next log set => simp [set] at none
    next => rfl

/-- A run goes through the parts of a survey, with the log at the end. -/
theorem exportAll_follows (storage : Storage) (proper : outlet.Proper) (options : ExportOptions)
    (capture : Option Log.Capture) :
    (Part.course storage outlet).Follows (exportAll storage outlet options capture)
      fun _ parts => ∃ (survey : Survey) (seen : List Log.Event),
        (options.metadata = true → survey.counts.map Prod.fst = survey.names) ∧
        parts = survey.run options (logArtifacts options capture seen) := by
  refine ((exportData_follows storage proper options).bind fun summary =>
    exportLog_follows storage proper options capture summary).mono ?_
  rintro _ _ ⟨summary, _, _, ⟨survey, counted, -, rfl⟩, ⟨seen, rfl⟩, rfl⟩
  exact ⟨survey, seen, counted, by simp [Survey.run]⟩

theorem exportAll_reached (storage : Storage) (proper : outlet.Proper) (options : ExportOptions)
    (capture : Option Log.Capture) (world : World) :
    ∃ (survey : Survey) (seen : List Log.Event),
      (options.metadata = true → survey.counts.map Prod.fst = survey.names) ∧
      Part.Reached storage outlet world (survey.run options (logArtifacts options capture seen))
        (exportAll storage outlet options capture world) := by
  have follows := exportAll_follows storage proper options capture
  cases ran : exportAll storage outlet options capture world with
  | ok summary after =>
    obtain ⟨_, ⟨survey, seen, counted, rfl⟩, passed⟩ := follows.ok trivial ran
    exact ⟨survey, seen, counted, .all passed⟩
  | error fault after =>
    obtain ⟨_, done, part, later, between, ⟨survey, seen, counted, split⟩, passed, breaks⟩ :=
      follows.error trivial ran
    exact ⟨survey, seen, counted, .broken split.symm passed breaks⟩

/-! ## Runs that succeed -/

variable {target : Target} {world world' : World}

/-- The last step of a run stores the log, if it is selected and was captured. -/
theorem exportLog_ok (storage : Storage) {capture : Option Log.Capture} {summary result : Summary}
    (h : exportLog target.outlet options capture summary world = .ok result world')
    (captured : options.log = true → capture.isSome = true) :
    result = ⟨summary.tables, summary.artifacts ++ if options.log then [logArtifact] else []⟩ ∧
      Talks storage world [] world' ∧
      target.Writes world (logArtifacts options capture world.log) world' ∧
      world'.log =
        world.log ++ (logArtifacts options capture world.log).flatMap target.completion := by
  unfold exportLog at h
  unfold logArtifacts
  cases selected : options.log with
  | false =>
    have none : (capture.filter fun _ => false) = none := by simp
    simp only [selected, none] at h
    cases h
    exact ⟨by simp, .silent storage rfl (List.prefix_refl _), by simpa using .idle rfl rfl, by simp⟩
  | true =>
    obtain ⟨log, rfl⟩ := Option.isSome_iff_exists.mp (captured selected)
    simp only [selected, Option.filter_some, if_true] at h
    obtain ⟨_, current, asked, rest⟩ := bind_ok h
    obtain ⟨rfl, rfl⟩ := get_ok asked
    obtain ⟨_, between, storing, last⟩ := bind_ok rest
    cases last
    obtain ⟨stored, talks, reported⟩ := Target.store_ok storage storing
    exact ⟨by simp, talks, .store stored, by simpa using reported⟩

/-- A run that succeeds took a survey and stored its artifacts in order. The log that it
stores is that of all events before. -/
theorem exportAll_ok {capture : Option Log.Capture} {summary : Summary}
    (captured : options.log = true → capture.isSome = true)
    (h : exportAll storage target.outlet options capture world = .ok summary world') :
    ∃ (survey : Survey) (seen : List Log.Event),
      (options.metadata = true → survey.counts.map Prod.fst = survey.names) ∧
      summary = survey.summary options ∧ world.log <+: seen ∧
      (Talks storage world (survey.exchanges options) world' ∧
        target.Writes world (survey.artifacts options ++ logArtifacts options capture seen) world') ∧
      world'.log = seen ++ (logArtifacts options capture seen).flatMap target.completion := by
  obtain ⟨data, closed, exported, logging⟩ := bind_ok h
  obtain ⟨_, ⟨survey, counted, rfl, rfl⟩, passed⟩ :=
    (exportData_follows storage target.outlet_proper options).ok trivial exported
  have talks := passed.talks target.outlet_proper
  have writes := passed.writes
  rw [List.flatMap_append] at talks writes
  -- the log is taken as it stands now, so the events about its own artifact are not in it
  obtain ⟨rfl, silent, stored, log⟩ := exportLog_ok storage logging captured
  refine ⟨survey, closed.log, counted, ?_, talks.log, ⟨?_, ?_⟩, log⟩
  · simp [Survey.summary, selectedNames]
  · have all := talks.trans silent
    rwa [List.append_nil, show [Part.asking ⟨.close, ()⟩].flatMap Part.exchanges =
      [⟨.close, ()⟩] from rfl, survey.exchanges_parts] at all
  · have all := writes.trans stored
    rwa [show [Part.asking ⟨.close, ()⟩].flatMap Part.artifacts = [] from rfl, List.append_nil,
      survey.artifacts_parts] at all

end Run

theorem exportAll_of_exportDatabase {storage : Storage} {target : Target} {options : ExportOptions}
    {capture : Option Log.Capture} {summary : Summary} {world world' : World}
    (h : exportDatabase storage target options capture world = .ok summary world') :
    Run.exportAll storage target.outlet options capture world = .ok summary world' ∧
      (options.log = true → capture.isSome = true) := by
  unfold exportDatabase exportTo at h
  split at h
  next => cases h
  next captured => exact ⟨h, by simpa [Option.isSome_iff_ne_none] using captured⟩

/-! ## A run -/

/-- A storage of one table with one row. -/
def oneTable : Script where
  tables := [⟨"apps", [⟨"id", "INT4"⟩], [.finished ⟨[("id", .int64 7)]⟩], 1, none, none, none⟩]
  listed := ["apps"]

/-- A directory that holds an older list of tables and a file of its own. -/
def usedDirectory : World where
  files.nodes := [(["out"], .directory), (["out", "_tables.csv"], .file [1]),
    (["out", "notes"], .file [2])]

/-- Tables go to a directory of their own, and the log is written. -/
def prefixed : ExportOptions where
  tablePrefix := "app/"
  log := true

theorem exportDatabase_usedDirectory :
    ∃ summary after, exportDatabase oneTable.storage (.directory "/out") prefixed
      (some (.fixed [3])) usedDirectory = .ok summary after := by
  have ran : succeeds (fun _ _ => true) (exportDatabase oneTable.storage (.directory "/out")
      prefixed (some (.fixed [3])) usedDirectory) = true := by
    cbv
  obtain ⟨summary, after, h, -⟩ := ok_of_succeeds ran
  exact ⟨summary, after, h⟩

/-! ## Main result -/

/-- After a successful run the content of the target is that of before with the artifacts of
a survey laid over it in the order of writing, and nothing else is changed. The survey is
what the storage answered; the summary lists its tables; the log is complete up to the
events about its own artifact. -/
theorem exportDatabase_overlays {storage : Storage} {target : Target} {options : ExportOptions}
    {capture : Option Log.Capture} {summary : Summary} {world world' : World}
    (here : target.Exists world.files)
    (accepts : ∀ listed, (storage.reply world.calls .listTables).outcome = .ok listed →
      ∀ table ∈ listed, target.Accepts (tableArtifact options.tablePrefix table))
    (h : exportDatabase storage target options capture world = .ok summary world') :
    ∃ (survey : Survey) (seen : List Log.Event),
      survey.TakenFrom storage world.calls options ∧
      world'.calls = world.calls ++ (survey.exchanges options).map Exchange.call ∧
      summary = survey.summary options ∧
      target.Overlaid world (survey.artifacts options ++ logArtifacts options capture seen) world' ∧
      (options.log = true → capture.isSome = true) ∧
      world.log <+: seen ∧
      world'.log = seen ++ (logArtifacts options capture seen).flatMap target.completion := by
  obtain ⟨ran, captured⟩ := exportAll_of_exportDatabase h
  obtain ⟨survey, seen, counted, same, earlier, ⟨talks, writes⟩, log⟩ :=
    Run.exportAll_ok captured ran
  refine ⟨survey, seen, ⟨talks.gives, counted⟩, talks.calls, same, ?_, captured, earlier, log⟩
  -- the tables of the survey are those listed, since that was the first question
  exact writes.overlaid here
    (survey.accepts_artifacts seen captured (accepts survey.names talks.gives.1))

theorem exportDatabase_overlays_usedDirectory :
    ∃ summary after, exportDatabase oneTable.storage (.directory "/out") prefixed
        (some (.fixed [3])) usedDirectory = .ok summary after ∧
      ∃ survey : Survey, survey.TakenFrom oneTable.storage [] prefixed ∧
        (Target.directory "/out").Overlaid usedDirectory
          (survey.artifacts prefixed ++ [⟨logArtifact, .text, [3]⟩]) after := by
  obtain ⟨summary, after, h⟩ := exportDatabase_usedDirectory
  have here : (Target.directory "/out").Exists usedDirectory.files := by
    unfold Target.Exists
    cbv
  have plain : ∀ listed, (oneTable.storage.reply [] .listTables).outcome = .ok listed →
      ∀ table ∈ listed, FileSystem.IsPlain (tableArtifact "app/" table) := by
    intro listed outcome table member
    cases outcome
    obtain rfl := List.mem_singleton.mp member
    decide
  obtain ⟨survey, seen, taken, -, -, overlaid, -⟩ :=
    @exportDatabase_overlays oneTable.storage (.directory "/out") prefixed (some (.fixed [3]))
      summary usedDirectory after here plain h
  exact ⟨summary, after, h, survey, taken, overlaid⟩

end TableExport
