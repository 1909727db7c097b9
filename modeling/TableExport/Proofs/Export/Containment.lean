import TableExport.Proofs.Export.Failures
import TableExport.Proofs.Export.Order
import TableExport.Proofs.FileSystem.Confinement
import TableExport.Sqlite.Catalog

/-!
# Where a run writes

The names of artifacts are made of whatever the tables are called and are joined to the directory
as they are. A run changes places on the trails of these names only, however it ends. All of them
are inside the directory if no name is absolute or goes up too far; a name that does leads out.
-/
namespace TableExport

open FileSystem (reach destination EndsNamed Descends Confined)

/-! ## Names of artifacts -/

/-- The name of an artifact ends as that of a file does, whatever its table is called. -/
theorem endsNamed_of_mem_artifactNames {options : ExportOptions} {tables : List TableName} :
    ∀ name ∈ artifactNames options tables, EndsNamed name := by
  apply forall_mem_artifactNames
  · exact FileSystem.endsNamed_of_getLast? (c := 'v') (by decide) (by decide) (by decide)
  · exact FileSystem.endsNamed_of_getLast? (c := 'v') (by decide) (by decide) (by decide)
  · exact FileSystem.endsNamed_of_getLast? (c := 'v') (by decide) (by decide) (by decide)
  · exact FileSystem.endsNamed_of_getLast? (c := 't') (by decide) (by decide) (by decide)
  · intro table _
    apply FileSystem.endsNamed_of_getLast? (c := 'v')
    · simp [tableArtifact]
    · decide
    · decide

/-! ## What is changed -/

/-- The places that artifacts of these names may change. -/
def reaches (base : Place) (names : List String) : List Place := names.flatMap (reach base)

section Directory
variable {storage : Storage} {path : String} {base : Place} {a b : World}

theorem Target.Writes.confined {xs : List Artifact} (writes : (Target.directory path).Writes a xs b)
    (resolved : a.files.resolve path = .ok base)
    (directory : a.files.node? base = some .directory)
    (named : ∀ artifact ∈ xs, EndsNamed artifact.name) :
    Confined a.files (reaches base (xs.map Artifact.name)) b.files := by
  induction writes with
  | idle files objects => exact files ▸ .refl ..
  | @store _ _ artifact stored =>
    obtain ⟨-, place, opened, created, written, -⟩ := stored
    have changed := (FileSystem.create?_confined resolved directory
      (named artifact List.mem_cons_self) created written).2
    simpa [reaches] using changed
  | @trans a' b' c' xs ys first second ihFirst ihSecond =>
    -- the directory is still there when the second half begins
    have early := ihFirst resolved directory fun artifact member =>
      named artifact (List.mem_append_left _ member)
    have late := ihSecond (FileSystem.resolve_grows early.grows resolved)
      (early.grows.directory base directory) fun artifact member =>
        named artifact (List.mem_append_right _ member)
    unfold reaches at early late ⊢
    rw [List.map_append, List.flatMap_append]
    exact (early.mono (List.subset_append_left ..)).trans (late.mono (List.subset_append_right ..))

/-- A part that breaks has changed no more than it would have if it had been passed. -/
theorem Part.Breaks.confined {part : Part} {fault : Fault ExportError}
    (breaks : Part.Breaks storage (Target.directory path).outlet part a fault b)
    (resolved : a.files.resolve path = .ok base)
    (directory : a.files.node? base = some .directory)
    (named : ∀ artifact ∈ part.artifacts, EndsNamed artifact.name) :
    Confined a.files (reaches base (part.artifacts.map Artifact.name)) b.files := by
  cases breaks with
  | unanswered failed keeps => exact keeps.files ▸ .refl ..
  | @unopened _ _ name contentType items _ opening =>
    obtain ⟨_, ⟨⟩, rfl, -⟩ := Target.openSink_error opening
    have made := FileSystem.withParents_confined resolved directory (named _ List.mem_cons_self)
    simpa [reaches, Part.artifacts] using made
  | @unwritten _ opened name contentType done rest item _ sink between left opening effect breaks
      held =>
    obtain ⟨place, files, created, rfl, rfl⟩ := Target.openSink_ok opening
    have written := (@Output.leave_within _ left fault (effect.toWithin.trans breaks.within)).1
    have changed := (FileSystem.create?_confined resolved directory (named _ List.mem_cons_self)
      created written).2
    simpa [reaches, Part.artifacts] using changed
  | @uncommitted _ opened c _ name contentType items _ sink sink' opening effect committing =>
    obtain ⟨place, files, created, rfl, rfl⟩ := Target.openSink_ok opening
    have changed := (FileSystem.create?_confined resolved directory (named _ List.mem_cons_self)
      created effect.files).2
    rw [(Target.commit_error committing).2]
    simpa [reaches, Part.artifacts] using changed

theorem reaches_append (base : Place) (xs ys : List String) :
    reaches base (xs ++ ys) = reaches base xs ++ reaches base ys := List.flatMap_append

/-- A run that broke off has changed places of the artifacts that it came to. -/
theorem BrokenOff.confined {options : ExportOptions} {capture : Option Log.Capture}
    {before between after : World} {survey : Survey} {done : List Part} {part : Part}
    {fault : Fault ExportError}
    (broken : BrokenOff storage (Target.directory path).outlet options capture before survey done
      part between fault after)
    (resolved : before.files.resolve path = .ok base)
    (directory : before.files.node? base = some .directory) :
    Confined before.files
      (reaches base ((done.flatMap Part.artifacts ++ part.artifacts).map Artifact.name))
      after.files := by
  have named : ∀ artifact ∈ done.flatMap Part.artifacts ++ part.artifacts,
      EndsNamed artifact.name := by
    intro artifact member
    apply endsNamed_of_mem_artifactNames
    apply broken.names.subset
    rw [← List.map_append]
    exact List.mem_map_of_mem member
  have early := broken.passed.writes.confined resolved directory fun artifact found =>
    named _ (List.mem_append_left _ found)
  have late := broken.breaks.confined (FileSystem.resolve_grows early.grows resolved)
    (early.grows.directory base directory) fun artifact found =>
      named _ (List.mem_append_right _ found)
  rw [List.map_append, reaches_append]
  exact (early.mono (List.subset_append_left ..)).trans (late.mono (List.subset_append_right ..))

/-- However a run ends, it has changed places on the trails of names that the listed tables and
the options give. -/
theorem exportDatabase_confined {options : ExportOptions} {capture : Option Log.Capture}
    {world : World} (resolved : world.files.resolve path = .ok base)
    (directory : world.files.node? base = some .directory) :
    ∃ names : List String,
      (∀ name ∈ names, ∃ tables, (storage.reply world.calls .listTables).outcome = .ok tables ∧
        name ∈ artifactNames options tables) ∧
      Confined world.files (reaches base names)
        (Run.left (exportDatabase storage (.directory path) options capture world)).files := by
  cases ran : exportDatabase storage (.directory path) options capture world with
  | ok summary after =>
    obtain ⟨exported, captured⟩ := exportAll_of_exportDatabase ran
    obtain ⟨survey, seen, -, -, -, ⟨talks, writes⟩, -⟩ := Run.exportAll_ok captured exported
    have names := survey.map_name_artifacts seen captured
    have confined := writes.confined resolved directory fun artifact member =>
      endsNamed_of_mem_artifactNames _ (names ▸ List.mem_map_of_mem member)
    exact ⟨_, fun name member => ⟨survey.names, talks.gives.1, names ▸ member⟩, confined⟩
  | error fault after =>
    obtain ⟨-, -, rfl⟩ | ⟨survey, done, part, between, broken⟩ := exportDatabase_brokenOff ran
    · exact ⟨[], nofun, .refl ..⟩
    refine ⟨_, fun name member => ?_, broken.confined resolved directory⟩
    rcases broken.listed with ⟨rfl, rfl⟩ | listed
    · -- nothing is to be written before the tables are listed
      cases member
    · rw [List.map_append] at member
      exact ⟨survey.names, listed, broken.names.subset member⟩

end Directory

/-! ## What is written -/

/-- Each artifact has a file at the end of the trail of its name, with its own content unless a
later one goes to the same end. -/
structure Arrived (base : Place) (artifacts : List Artifact) (files : FileSystem) : Prop where
  file : ∀ artifact ∈ artifacts,
    ∃ content, files.content? (destination base artifact.name) = some content
  own : ∀ earlier artifact later, artifacts = earlier ++ artifact :: later →
    (∀ other ∈ later, destination base other.name ≠ destination base artifact.name) →
    files.content? (destination base artifact.name) = some artifact.body

theorem Target.Writes.arrived {path : String} {base : Place} {a b : World} {xs : List Artifact}
    (writes : (Target.directory path).Writes a xs b) (resolved : a.files.resolve path = .ok base)
    (directory : a.files.node? base = some .directory) : Arrived base xs b.files := by
  have laid := writes.laid
  have write {artifact : Artifact} (member : artifact ∈ xs) :
      (FileSystem.join path artifact.name, artifact.body) ∈
        xs.map fun artifact => (FileSystem.join path artifact.name, artifact.body) :=
    List.mem_map_of_mem member
  have ends {artifact : Artifact} (member : artifact ∈ xs) :
      b.files.landing (FileSystem.join path artifact.name) = destination base artifact.name :=
    FileSystem.landing_join (FileSystem.resolve_grows laid.grows resolved)
      (laid.grows.directory base directory) (laid.lands _ (write member))
  constructor
  case file =>
    intro artifact member
    obtain ⟨content, held⟩ := laid.content?_landing (write member)
    exact ⟨content, ends member ▸ held⟩
  case own =>
    rintro earlier artifact later rfl last
    rw [List.map_append, List.map_cons] at laid
    rw [← ends (List.mem_append_right _ List.mem_cons_self)]
    apply laid.content?_last
    -- what lands on one place has one destination
    intro write member same
    obtain ⟨other, found, rfl⟩ := List.mem_map.mp member
    apply last other found
    rw [← ends (List.mem_append_right _ (List.mem_cons_of_mem _ found)), same,
      ends (List.mem_append_right _ List.mem_cons_self)]

/-! ## Main result -/

/-- A run into a directory changes nothing but places that the names of its artifacts lead through,
from the directory on or, for an absolute name, from the root on. If all names of tables descend,
then these are places inside the directory. After a successful run the file of each artifact is
where its name leads, with the content of the last artifact that was written there. -/
theorem exportDatabase_contained {storage : Storage} {path : String} {options : ExportOptions}
    {capture : Option Log.Capture} {world : World} {base : Place}
    (resolved : world.files.resolve path = .ok base)
    (directory : world.files.node? base = some .directory)
    (result : EStateM.Result (Fault ExportError) World Summary)
    (h : exportDatabase storage (.directory path) options capture world = result) :
    (∀ place, (Run.left result).files.node? place ≠ world.files.node? place →
      ∃ tables, (storage.reply world.calls .listTables).outcome = .ok tables ∧
        ∃ name ∈ artifactNames options tables, place ∈ reach base name) ∧
    ((∀ tables, (storage.reply world.calls .listTables).outcome = .ok tables →
        ∀ table ∈ tables, Descends (tableArtifact options.tablePrefix table)) →
      ∀ place, (Run.left result).files.node? place ≠ world.files.node? place →
        base <+: place ∧ place ≠ base) ∧
    (∀ summary after, result = .ok summary after →
      ∃ (survey : Survey) (seen : List Log.Event) (artifacts : List Artifact),
        survey.TakenFrom storage world.calls options ∧
        (storage.reply world.calls .listTables).outcome = .ok survey.names ∧
        artifacts = survey.artifacts options ++ logArtifacts options capture seen ∧
        artifacts.map Artifact.name = artifactNames options survey.names ∧
        Arrived base artifacts after.files) := by
  subst h
  obtain ⟨names, named, confined⟩ :=
    @exportDatabase_confined storage path base options capture world resolved directory
  have reached : ∀ place, (Run.left (exportDatabase storage (.directory path) options capture
      world)).files.node? place ≠ world.files.node? place →
      ∃ tables, (storage.reply world.calls .listTables).outcome = .ok tables ∧
        ∃ name ∈ artifactNames options tables, place ∈ reach base name := by
    intro place changed
    have listed := (confined.node place).resolve_left changed
    obtain ⟨name, member, onTrail⟩ := List.mem_flatMap.mp listed
    obtain ⟨tables, outcome, known⟩ := named name member
    exact ⟨tables, outcome, name, known, onTrail⟩
  refine ⟨reached, fun descend place changed => ?_, ?_⟩
  · obtain ⟨tables, outcome, name, known, onTrail⟩ := reached place changed
    have descends : Descends name :=
      forall_mem_artifactNames (by decide) (by decide) (by decide) (by decide)
        (descend tables outcome) name known
    refine ⟨descends.reach base place onTrail, ?_⟩
    -- the directory itself is there before and after
    rintro rfl
    exact changed ((confined.grows.directory place directory).trans directory.symm)
  · intro summary after ran
    obtain ⟨exported, captured⟩ := exportAll_of_exportDatabase ran
    obtain ⟨survey, seen, counted, -, -, ⟨talks, writes⟩, -⟩ := Run.exportAll_ok captured exported
    exact ⟨survey, seen, _, ⟨talks.gives, counted⟩, talks.gives.1, rfl,
      survey.map_name_artifacts seen captured, writes.arrived resolved directory⟩

/-- Tables that go to a directory of their own stay inside the target. -/
theorem exportDatabase_contained_usedDirectory :
    ∃ summary after, exportDatabase oneTable.storage (.directory "/out") prefixed
        (some (.fixed [3])) usedDirectory = .ok summary after ∧
      destination ["out"] (tableArtifact "app/" ⟨"apps", by decide⟩) = ["out", "app", "apps.csv"] ∧
      after.files.content? ["out", "app", "apps.csv"] = some (Csv.document [["id"], ["7"]]) ∧
      ∀ place, after.files.node? place ≠ usedDirectory.files.node? place →
        ["out"] <+: place ∧ place ≠ ["out"] := by
  obtain ⟨summary, after, ran⟩ := exportDatabase_usedDirectory
  obtain ⟨-, inside, files⟩ := @exportDatabase_contained oneTable.storage "/out" prefixed
    (some (.fixed [3])) usedDirectory ["out"] (by rfl) (by rfl) _ ran
  have listed : ∀ tables, (oneTable.storage.reply [] .listTables).outcome = .ok tables →
      tables = [⟨"apps", by decide⟩] := by
    intro tables outcome
    cases outcome
    rfl
  have ends : destination ["out"] (tableArtifact "app/" ⟨"apps", by decide⟩) =
      ["out", "app", "apps.csv"] := by decide
  refine ⟨summary, after, ran, ends, ?_, inside fun tables outcome table member => ?_⟩
  · obtain ⟨⟨tables, counts, rules⟩, seen, artifacts, taken, outcome, same, -, arrived⟩ :=
      files summary after rfl
    -- the answers of the storage are its one table, with a column and a row
    obtain ⟨⟨table, columns, rows⟩, rfl, rfl⟩ := List.map_eq_singleton_iff.mp (listed _ outcome)
    obtain ⟨-, described, read, -⟩ := taken.gives
    cases described
    cases read
    have apart : destination ["out"] logArtifact ≠ destination ["out"] (tableArtifact "app/"
      ⟨"apps", by decide⟩) := by decide
    have record : rowRecords [⟨"id", "INT4"⟩] [⟨[("id", .int64 7)]⟩] = [["7"]] := by cbv
    rw [← ends, ← record]
    exact arrived.own [_] _ [_] same (List.forall_mem_singleton.mpr apart)
  · obtain rfl := listed tables outcome
    obtain rfl := List.mem_singleton.mp member
    decide

/-- A database with a table whose name goes up. -/
def climbingCatalog : Sqlite.Catalog where
  tables := [⟨"../escape", [("id", "INTEGER")], [[.integer 1]]⟩]

/-- Such a table is written beside the directory, and with a slash for a prefix any table is
written to the root. -/
theorem exportDatabase_escapes :
    (∃ summary after, exportDatabase climbingCatalog.database.storage (.directory "/out") {} none
        usedDirectory = .ok summary after ∧
      usedDirectory.files.node? ["escape.csv"] = none ∧
      after.files.content? ["escape.csv"] = some (Csv.document [["id"], ["1"]]) ∧
      ¬["out"] <+: ["escape.csv"]) ∧
    (∃ summary after, exportDatabase oneTable.storage (.directory "/out") { tablePrefix := "/" }
        none usedDirectory = .ok summary after ∧
      usedDirectory.files.node? ["apps.csv"] = none ∧
      after.files.content? ["apps.csv"] = some (Csv.document [["id"], ["7"]]) ∧
      ¬["out"] <+: ["apps.csv"]) := by
  have up : succeeds (fun _ after =>
        decide (after.files.content? ["escape.csv"] = some (Csv.document [["id"], ["1"]])))
      (exportDatabase climbingCatalog.database.storage (.directory "/out") {} none
        usedDirectory) = true := by
    cbv
  have absolute : succeeds (fun _ after =>
        decide (after.files.content? ["apps.csv"] = some (Csv.document [["id"], ["7"]])))
      (exportDatabase oneTable.storage (.directory "/out") { tablePrefix := "/" } none
        usedDirectory) = true := by
    cbv
  obtain ⟨summary, after, ran, written⟩ := ok_of_succeeds up
  obtain ⟨other, later, ranAgain, writtenAgain⟩ := ok_of_succeeds absolute
  exact ⟨⟨summary, after, ran, rfl, by simpa using written, by decide⟩,
    ⟨other, later, ranAgain, rfl, by simpa using writtenAgain, by decide⟩⟩

end TableExport
