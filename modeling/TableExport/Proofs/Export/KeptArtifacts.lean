import TableExport.Proofs.Export.Runs
import TableExport.Sqlite.Catalog

/-!
# Artifacts that are kept

All artifacts of a run share one space of names. A table may take the name of another
table or of an artifact that every run writes; then only the later one is kept. Nothing
else can happen to an artifact.
-/
namespace TableExport

/-! ## Names -/

theorem tableArtifact_injective (namePrefix : String) {table other : TableName}
    (same : tableArtifact namePrefix table = tableArtifact namePrefix other) : table = other := by
  obtain ⟨text, nonempty⟩ := table
  obtain ⟨otherText, otherNonempty⟩ := other
  have letters := congrArg String.toList same
  simp only [tableArtifact, String.toList_append, List.append_assoc, List.append_cancel_left_eq,
    List.append_cancel_right_eq] at letters
  cases String.toList_inj.mp letters
  rfl

theorem fixedNames_nodup (options : ExportOptions) :
    (tablesArtifact :: selectedNames options).Nodup := by
  unfold selectedNames
  cases options.metadata <;> cases options.disabledRules <;> cases options.log <;> decide

/-- The names of a run are pairwise distinct exactly if its tables are and no table takes the
name of an artifact that the run writes anyway. -/
theorem artifactNames_nodup {options : ExportOptions} {tables : List TableName} :
    (artifactNames options tables).Nodup ↔
      tables.Nodup ∧ ∀ table ∈ tables,
        tableArtifact options.tablePrefix table ∉ tablesArtifact :: selectedNames options := by
  -- the list of tables is written first, but its place among the names does not matter
  have moved : (artifactNames options tables).Perm
      (tables.map (tableArtifact options.tablePrefix) ++ tablesArtifact :: selectedNames options) :=
    List.perm_middle.symm
  have injective : (tables.map (tableArtifact options.tablePrefix)).Nodup ↔ tables.Nodup :=
    List.nodup_map_iff fun _ _ => tableArtifact_injective options.tablePrefix
  rw [moved.nodup_iff, List.nodup_append', injective, List.disjoint_left]
  simp only [fixedNames_nodup, true_and, List.mem_map, forall_exists_index, and_imp,
    forall_apply_eq_imp_iff₂]

/-! ## Main result -/

/-- At the end of a successful run an artifact is read back as it was written, unless a later
one of the same run went to the same place. If the names are pairwise distinct, and the target
keeps them apart, that is all of them. -/
theorem exportDatabase_keeps {storage : Storage} {target : Target} {options : ExportOptions}
    {capture : Option Log.Capture} {summary : Summary} {world world' : World}
    (h : exportDatabase storage target options capture world = .ok summary world') :
    ∃ (survey : Survey) (seen : List Log.Event) (artifacts : List Artifact),
      survey.TakenFrom storage world.calls options ∧
      summary = survey.summary options ∧
      artifacts = survey.artifacts options ++ logArtifacts options capture seen ∧
      artifacts.map Artifact.name = artifactNames options survey.names ∧
      ((artifactNames options survey.names).Nodup ↔
        survey.names.Nodup ∧ ∀ table ∈ survey.names,
          tableArtifact options.tablePrefix table ∉ tablesArtifact :: selectedNames options) ∧
      (∀ earlier artifact later, artifacts = earlier ++ artifact :: later →
        (∀ other ∈ later, ¬target.SamePlace world'.files other.name artifact.name) →
        target.Holds world' artifact) ∧
      ((artifactNames options survey.names).Nodup → target.Exists world.files →
        (∀ table ∈ survey.names, target.Accepts (tableArtifact options.tablePrefix table)) →
        ∀ artifact ∈ artifacts, target.Holds world' artifact) := by
  obtain ⟨ran, captured⟩ := exportAll_of_exportDatabase h
  obtain ⟨survey, seen, counted, same, -, ⟨talks, writes⟩, -⟩ := Run.exportAll_ok captured ran
  have names := survey.map_name_artifacts seen captured
  refine ⟨survey, seen, _, ⟨talks.gives, counted⟩, same, rfl, names, artifactNames_nodup, ?_, ?_⟩
  · rintro earlier artifact later split last
    rw [split] at writes
    exact writes.holds last
  · -- distinct names that the target keeps apart lead to distinct places
    intro distinct here accepts
    have accepted := accepts_artifactNames accepts
    rw [← names] at accepted distinct
    exact writes.holds_all here (fun artifact member => accepted _ (List.mem_map_of_mem member))
      distinct

theorem exportDatabase_keeps_usedDirectory :
    ∃ summary after, exportDatabase oneTable.storage (.directory "/out") prefixed
        (some (.fixed [3])) usedDirectory = .ok summary after ∧
      ∃ (survey : Survey) (artifacts : List Artifact), summary = survey.summary prefixed ∧
        artifacts.map Artifact.name = artifactNames prefixed survey.names ∧
        ∀ earlier artifact later, artifacts = earlier ++ artifact :: later →
          (∀ other ∈ later,
            ¬(Target.directory "/out").SamePlace after.files other.name artifact.name) →
          (Target.directory "/out").Holds after artifact := by
  obtain ⟨summary, after, h⟩ := exportDatabase_usedDirectory
  obtain ⟨survey, seen, artifacts, -, same, -, names, -, kept, -⟩ := exportDatabase_keeps h
  exact ⟨summary, after, h, survey, artifacts, same, names, kept⟩

/-- A database with a table that takes the name of the list of tables. -/
def takingCatalog : Sqlite.Catalog where
  tables := [⟨"_tables", [("id", "INTEGER")], [[.integer 1]]⟩]

def emptyDirectory : World where
  files.nodes := [(["out"], .directory)]

/-- Such a table replaces the list of tables, under the same name or, with a prefix that stands
for the directory itself, under another one. -/
theorem exportDatabase_loses_list :
    (∃ summary after, exportDatabase takingCatalog.database.storage (.directory "/out") {} none
        emptyDirectory = .ok summary after ∧
      ¬(summary.tables.map TableSummary.artifact ++ summary.artifacts).Nodup ∧
      after.files.read? "/out/_tables.csv" ≠
        some (Csv.document [["Table name"], ["_tables"]])) ∧
    (∃ summary after, exportDatabase takingCatalog.database.storage (.directory "/out")
        { tablePrefix := "./" } none emptyDirectory = .ok summary after ∧
      (summary.tables.map TableSummary.artifact ++ summary.artifacts).Nodup ∧
      after.files.read? "/out/_tables.csv" ≠
        some (Csv.document [["Table name"], ["_tables"]])) := by
  have lost : succeeds
      (fun summary after =>
        !decide (summary.tables.map TableSummary.artifact ++ summary.artifacts).Nodup &&
          decide (after.files.read? "/out/_tables.csv" ≠
            some (Csv.document [["Table name"], ["_tables"]])))
      (exportDatabase takingCatalog.database.storage (.directory "/out") {} none
        emptyDirectory) = true := by
    cbv
  have lostAgain : succeeds
      (fun summary after =>
        decide (summary.tables.map TableSummary.artifact ++ summary.artifacts).Nodup &&
          decide (after.files.read? "/out/_tables.csv" ≠
            some (Csv.document [["Table name"], ["_tables"]])))
      (exportDatabase takingCatalog.database.storage (.directory "/out") { tablePrefix := "./" }
        none emptyDirectory) = true := by
    cbv
  obtain ⟨summary, after, ran, facts⟩ := ok_of_succeeds lost
  obtain ⟨other, later, ranAgain, factsAgain⟩ := ok_of_succeeds lostAgain
  exact ⟨⟨summary, after, ran, by simpa using facts⟩,
    ⟨other, later, ranAgain, by simpa using factsAgain⟩⟩

end TableExport
