import TableExport.Proofs.Export.Parallels
import TableExport.Proofs.Export.Runs
import TableExport.Proofs.FileSystem.Reopening

/-!
# Runs that are repeated

A run that succeeded leaves a target that it can be repeated into: each of its files can be
opened again, and a storage that is asked the same answers the same. So the second run cannot
break where the first did not, and what it writes is there already. What stood under the names
of a run before does not show afterwards.
-/
namespace TableExport

/-! ## Artifacts that are stored again -/

namespace Target

/-- What is there under a name can be replaced. Only a file may be in the way of another one. -/
def Reopens (target : Target) (files : FileSystem) (name : String) : Prop :=
  match target with
  | .directory path => files.Reopens (FileSystem.join path name)
  | .bucket _ _ => True

/-- The target takes an artifact after so many attempts. A file is always completed. -/
def Takes (target : Target) (attempts : Nat) (artifact : Artifact) : Prop :=
  match target with
  | .directory _ => True
  | .bucket store service => service.accepts attempts (artifact.upload store) = true

/-- What the target takes at one time it takes at any time. A directory always does. -/
def Steady (target : Target) : Prop :=
  ∀ {m n : Nat} {artifact : Artifact}, target.Takes m artifact → target.Takes n artifact

/-- A file is not opened unless its directory is there by then. -/
theorem openFile_rooted {path : String} {world opened : World} {sink : Sink}
    (h : openFile path world = .ok sink opened) : (world.files.withParents path).Rooted path := by
  intro above parent
  simp only [FileSystem.withParents, parent]
  simp only [openFile, parent, get_bind, set_bind] at h
  cases made : world.files.ensureDirectory above with
  | mk there files =>
    cases there with
    | true => exact FileSystem.isDirectory_ensureWithin made
    | false =>
      rw [made] at h
      cases h

theorem createFile_again {path : String} {world : World} (reopens : world.files.Reopens path) :
    ∃ sink opened, createFile path world = .ok sink opened := by
  simp only [createFile, get_bind, reopens.create?]
  exact ⟨_, _, rfl⟩

theorem openFile_again {path : String} {world : World} (reopens : world.files.Reopens path) :
    ∃ sink opened, openFile path world = .ok sink opened := by
  unfold openFile
  cases parent : FileSystem.parent? path with
  | none => exact createFile_again reopens
  | some above =>
    simp only [get_bind, set_bind, FileSystem.ensureDirectory_there (reopens.rooted above parent)]
    exact createFile_again reopens

variable {target : Target} {name : String} {contentType : ContentType} {a b : World} {sink : Sink}

theorem openSink_again (reopens : target.Reopens a.files name) :
    ∃ sink opened, target.outlet.openSink name contentType a = .ok sink opened := by
  cases target with
  | directory path => exact openFile_again reopens
  | bucket store service => exact ⟨_, _, rfl⟩

theorem Writes.reopens {xs : List Artifact} (writes : target.Writes a xs b)
    (reopens : target.Reopens a.files name) : target.Reopens b.files name := by
  cases target with
  | directory path => exact FileSystem.Reopens.laid reopens writes.laid
  | bucket store service => trivial

namespace Opened

theorem willing (opened : target.Opened name contentType a sink b) : sink.Willing := by
  cases target with
  | directory path =>
    obtain ⟨place, files, -, rfl, -⟩ := opened
    trivial
  | bucket store service =>
    obtain ⟨rfl, -⟩ := opened
    trivial

/-- An artifact that was written in full is completed if the target takes it. -/
theorem commit_iff {storage : Storage} {c : World} {sink' : Sink} {data : Bytes}
    {exchanges : List Exchange} (opened : target.Opened name contentType a sink b)
    (effect : Effect storage ⟨[], sink, b⟩ data exchanges ⟨[], sink', c⟩) :
    (∃ d, target.outlet.commit sink' c = .ok () d) ↔
      target.Takes c.attempts ⟨name, contentType, data⟩ := by
  have bytes : sink'.taken c.files = data := by
    simpa [Output.bytes, opened.ready.2] using effect.bytes
  cases target with
  | directory path =>
    obtain ⟨place, files, created, rfl, rfl⟩ := opened
    obtain ⟨offset, pending, rfl⟩ := Sink.file_of_origin effect.origin
    exact ⟨fun _ => trivial, fun _ => ⟨_, rfl⟩⟩
  | bucket store service =>
    obtain ⟨rfl, rfl⟩ := opened
    obtain rfl : sink' = .buffer name contentType data :=
      bytes ▸ Sink.buffer_of_origin effect.origin c.files
    constructor
    · rintro ⟨d, done⟩
      obtain ⟨_, between, sent, -⟩ := bind_ok done
      exact Run.upload_iff.mp ⟨between, sent⟩
    · intro takes
      obtain ⟨after, taken⟩ := Run.upload_iff.mpr takes
      cases done : (bucket store service).outlet.commit (.buffer name contentType data) c with
      | ok _ d => exact ⟨d, rfl⟩
      | error fault d =>
        obtain sent | ⟨_, _, -, reported⟩ := bind_error done
        · cases sent.symm.trans taken
        · cases reported

end Opened

end Target

/-! ## Parts that are passed again -/

namespace Part
variable {storage : Storage} {target : Target} {p q : Part} {a b a' b' : World}

theorem Twin.names (twin : Twin p q) :
    p.artifacts.map Artifact.name = q.artifacts.map Artifact.name := by
  cases twin <;> rfl

theorem Passes.reopens (passes : Passes storage target.outlet p a b) {artifact : Artifact}
    (member : artifact ∈ p.artifacts) : target.Reopens b.files artifact.name := by
  cases passes with
  | asking talks keeps => cases member
  | storing opening effect committing =>
    obtain rfl := List.mem_singleton.mp member
    obtain ⟨stored, -⟩ := (Target.openSink_ok opening).completed effect committing
    cases target with
    | bucket store service => trivial
    | directory path =>
      obtain ⟨-, place, files, created, same, held⟩ := stored
      have laid := FileSystem.laid_of_create? created same held
      have file := laid.content?_landing (List.mem_singleton_self _)
      have rooted := Target.openFile_rooted opening
      exact ⟨rooted.grows (FileSystem.create?_sameBut created same).2,
        laid.lands _ (List.mem_singleton_self _), file⟩

/-- A part that was passed once does not break when it is tried again. -/
theorem Passes.again {fault : Fault ExportError} (passes : Passes storage target.outlet p a b)
    (twin : Twin p q) (steady : target.Steady) (calls : a'.calls = a.calls)
    (reopens : ∀ artifact ∈ q.artifacts, target.Reopens a'.files artifact.name) :
    ¬Breaks storage target.outlet q a' fault b' := by
  intro breaks
  cases twin with
  | asking x y =>
    obtain ⟨talks, -⟩ := passes
    obtain ⟨failed, -⟩ := breaks
    have answered := talks.gives.1
    rw [← calls] at answered
    cases answered.symm.trans failed.failed
  | @storing name contentType items others forked made =>
    obtain _ | ⟨opening, effect, committing⟩ := passes
    have opened := Target.openSink_ok opening
    have given := effect.talks.gives
    rw [opened.silent.1, ← calls] at given
    cases breaks with
    | unopened refused =>
      obtain ⟨sink, _, again⟩ := Target.openSink_again (reopens _ (List.mem_singleton_self _))
      cases refused.symm.trans again
    | unwritten opening' effect' breaks held =>
      -- only a question can break it, and the first run got an answer after the same questions
      have opened' := Target.openSink_ok opening'
      obtain ⟨exchange, rfl, failed⟩ := breaks.asked (effect'.toWithin.willing opened'.willing)
      have given' := effect'.talks.gives
      have called := effect'.talks.calls
      rw [opened'.silent.1] at given' called
      rw [Item.exchanges_append, Item.exchanges_cons] at forked
      obtain ⟨answer, answered⟩ := Forked.answered forked given given'
      rw [← called] at answered
      cases answered.symm.trans failed.failed
    | uncommitted opening' effect' refused =>
      -- all questions were answered, so both runs have made the same artifact
      have opened' := Target.openSink_ok opening'
      have given' := effect'.talks.gives
      rw [opened'.silent.1] at given'
      obtain rfl := made (forked.eq_of_gives given given')
      have takes := (opened.commit_iff effect).mp ⟨_, committing⟩
      obtain ⟨d, again⟩ := (opened'.commit_iff effect').mpr (steady takes)
      cases refused.symm.trans again

/-- Where parts were passed, those of a second run that goes in parallel do not break. -/
theorem Reached.again {α : Type} {ps qs : List Part} {before after second : World}
    {result : EStateM.Result (Fault ExportError) World α}
    (passed : Passed storage target.outlet before ps after) (parallel : Parallel ps qs)
    (steady : target.Steady) (calls : second.calls = before.calls)
    (files : second.files = after.files)
    (reached : Reached storage target.outlet second qs result) :
    ∃ done left, result = .ok done left := by
  cases reached with
  | all passed => exact ⟨_, _, rfl⟩
  | @broken done later part between left fault split passed' breaks =>
    subst split
    have talks' := passed'.talks target.outlet_proper
    have given := (passed.talks target.outlet_proper).gives
    have given' := talks'.gives
    rw [calls] at given'
    obtain ⟨other, rest, rfl, twin⟩ := parallel.meets given given'
    obtain ⟨c, d, early, passes, late⟩ := passed.passes rfl
    have same : between.calls = c.calls := by
      rw [talks'.calls, (early.talks target.outlet_proper).calls, calls]
    refine absurd breaks (passes.again twin steady same fun artifact member => ?_)
    -- what the first run stored stayed there up to its end, and then up to this part
    obtain ⟨stored, kept, named⟩ :
        ∃ stored ∈ other.artifacts, stored.name = artifact.name := by
      have names := List.mem_map_of_mem member (f := Artifact.name)
      rw [← twin.names] at names
      exact List.mem_map.mp names
    have there := late.writes.reopens (passes.reopens kept)
    rw [← files, named] at there
    exact passed'.writes.reopens there

end Part

/-! ## Targets that hold the same -/

/-- Nothing that is stored differs: each path leads to the same, and so does each key. -/
structure World.SameStored (before after : World) : Prop where
  files : FileSystem.SameBut none before.files after.files
  objects : ∀ bucket, after.object? bucket = before.object? bucket

namespace Target
variable {target : Target} {a b c d : World} {xs : List Artifact}

/-- Two targets that differ at most at these names and, below a directory, on the way to them. -/
def AgreeBeside (target : Target) (names : List String) (a b : World) : Prop :=
  match target with
  | .directory path =>
    ∃ base base', a.files.resolve path = .ok base ∧ b.files.resolve path = .ok base' ∧
      ∀ place, (∀ name ∈ names, ∀ n, 0 < n → place ≠ (FileSystem.steps name).take n) →
        a.files.node? (base ++ place) = b.files.node? (base' ++ place)
  | .bucket store _ => ∀ key ∉ names, a.object? store.name key = b.object? store.name key

/-- Artifacts that are laid over a target again are there already. -/
theorem Overlaid.again (first : target.Overlaid a xs b) (second : target.Overlaid c xs d)
    (files : c.files = b.files) (objects : c.objects = b.objects) : b.SameStored d := by
  cases target with
  | directory path =>
    obtain ⟨-, base, resolved, below⟩ := first
    obtain ⟨kept, base', resolved', below'⟩ := second
    -- no directory was taken away, so the path leads to the same place again
    rw [files] at resolved' below'
    cases resolved'.symm.trans (FileSystem.resolve_grows below.grows resolved)
    exact ⟨below.again below', fun bucket => by rw [World.object?_congr (kept.trans objects)]⟩
  | bucket store service =>
    refine ⟨files ▸ second.1, fun bucket => ?_⟩
    rw [second.2 bucket, World.object?_congr objects, first.2 bucket]
    split
    next => rw [overlay_again]
    next => rfl

/-- What differs under the names of artifacts does not when they are laid over it. -/
theorem Overlaid.agree (first : target.Overlaid a xs b) (second : target.Overlaid c xs d)
    (beside : target.AgreeBeside (xs.map Artifact.name) a c) : target.AgreeBeside [] b d := by
  cases target with
  | directory path =>
    obtain ⟨-, base, resolved, below⟩ := first
    obtain ⟨-, base', resolved', below'⟩ := second
    obtain ⟨found, found', here, here', same⟩ := beside
    -- each run writes below the place that its own path leads to
    cases here.symm.trans resolved
    cases here'.symm.trans resolved'
    refine ⟨base, base', FileSystem.resolve_grows below.grows resolved,
      FileSystem.resolve_grows below'.grows resolved', fun place _ => ?_⟩
    refine below.agree below' fun off => same place fun name member n positive => ?_
    obtain ⟨artifact, written, rfl⟩ := List.mem_map.mp member
    exact off _ (List.mem_map_of_mem written) n positive
  | bucket store service =>
    intro key _
    rw [first.2, second.2, if_pos rfl, if_pos rfl]
    refine overlay_congr fun absent => beside key fun member => absent ?_
    obtain ⟨artifact, written, rfl⟩ := List.mem_map.mp member
    exact List.mem_map.mpr ⟨_, List.mem_map_of_mem written, rfl⟩

end Target

/-! ## Main result -/

section Repeats
variable {storage : Storage} {target : Target} {options : ExportOptions}
  {capture : Option Log.Capture} {summary : Summary} {world world' : World}

/-- The summary of a run tells the names of all its artifacts. -/
theorem Survey.names_of_summary (survey : Survey) (silent : options.log = false) :
    artifactNames options ((survey.summary options).tables.map TableSummary.table) =
      (survey.artifacts options).map Artifact.name := by
  have tables : (survey.summary options).tables.map TableSummary.table = survey.names := by
    simp [Survey.summary, Survey.names, TableData.summary, Function.comp_def]
  have named := @Survey.map_name_artifacts survey options none [] (by simp [silent])
  rw [tables, ← named, logArtifacts_silent silent, List.append_nil]

theorem exportDatabase_silent (silent : options.log = false) :
    exportDatabase storage target options capture =
      Run.exportAll storage target.outlet options capture := by
  simp [exportDatabase, exportTo, silent]

/-- A run without a log is told by its survey. -/
theorem exportDatabase_surveyed (silent : options.log = false) (here : target.Exists world.files)
    (accepts : ∀ listed, (storage.reply world.calls .listTables).outcome = .ok listed →
      ∀ table ∈ listed, target.Accepts (tableArtifact options.tablePrefix table))
    (h : exportDatabase storage target options capture world = .ok summary world') :
    ∃ survey : Survey, survey.TakenFrom storage world.calls options ∧
      summary = survey.summary options ∧
      target.Overlaid world (survey.artifacts options) world' := by
  obtain ⟨ran, captured⟩ := exportAll_of_exportDatabase h
  obtain ⟨survey, seen, counted, same, -, ⟨talks, writes⟩, -⟩ := Run.exportAll_ok captured ran
  have overlaid := writes.overlaid here
    (survey.accepts_artifacts seen captured (accepts survey.names talks.gives.1))
  rw [logArtifacts_silent silent, List.append_nil] at overlaid
  exact ⟨survey, ⟨talks.gives, counted⟩, same, overlaid⟩

/-- A run that succeeded can be repeated into what it left. -/
theorem exportDatabase_succeeds_again (silent : options.log = false) (steady : target.Steady)
    (h : exportDatabase storage target options capture world = .ok summary world')
    {again : World} (calls : again.calls = world.calls) (files : again.files = world'.files) :
    ∃ result after, exportDatabase storage target options capture again = .ok result after := by
  rw [exportDatabase_silent silent] at h ⊢
  obtain ⟨survey, seen, counted, first⟩ :=
    Run.exportAll_reached storage target.outlet_proper options capture world
  obtain ⟨survey', seen', counted', second⟩ :=
    Run.exportAll_reached storage target.outlet_proper options capture again
  rw [logArtifacts_silent silent] at first second
  rw [h] at first
  cases first with
  | all passed =>
    exact second.again passed (Survey.run_parallel counted counted' []) steady calls files

end Repeats

/-- A run without a log that succeeded once does so again, with the same summary, and leaves
the target as it was. What stood at its names before, or on the way to them, does not matter:
two runs into targets that differ there only leave them with the same content. -/
theorem exportDatabase_repeats {storage : Storage} {target : Target} {options : ExportOptions}
    {capture : Option Log.Capture} {summary : Summary} {world world' : World}
    (silent : options.log = false) (here : target.Exists world.files)
    (accepts : ∀ listed, (storage.reply world.calls .listTables).outcome = .ok listed →
      ∀ table ∈ listed, target.Accepts (tableArtifact options.tablePrefix table))
    (h : exportDatabase storage target options capture world = .ok summary world') :
    (∀ again : World, target.Steady → again.calls = world.calls → again.files = world'.files →
      again.objects = world'.objects →
      ∃ after, exportDatabase storage target options capture again = .ok summary after ∧
        world'.SameStored after) ∧
    ∀ (other other' : World) (result : Summary), other.calls = world.calls →
      target.Exists other.files →
      target.AgreeBeside (artifactNames options (summary.tables.map TableSummary.table)) world other →
      exportDatabase storage target options capture other = .ok result other' →
      result = summary ∧ target.AgreeBeside [] world' other' := by
  obtain ⟨survey, taken, rfl, overlaid⟩ := exportDatabase_surveyed silent here accepts h
  constructor
  · intro again steady calls files objects
    obtain ⟨result, after, h'⟩ := exportDatabase_succeeds_again silent steady h calls files
    obtain ⟨survey', taken', rfl, overlaid'⟩ := exportDatabase_surveyed silent
      (files ▸ overlaid.exists_after here) (calls ▸ accepts) h'
    obtain ⟨artifacts, summary⟩ := taken.unique (calls ▸ taken')
    rw [← artifacts] at overlaid'
    exact ⟨after, summary ▸ h', overlaid.again overlaid' files objects⟩
  · intro other other' result calls here' beside h'
    obtain ⟨survey', taken', rfl, overlaid'⟩ :=
      exportDatabase_surveyed silent here' (calls ▸ accepts) h'
    obtain ⟨artifacts, summary⟩ := taken.unique (calls ▸ taken')
    rw [← artifacts] at overlaid'
    rw [survey.names_of_summary silent] at beside
    exact ⟨summary.symm, overlaid.agree overlaid' beside⟩

/-- Tables go to a directory of their own, and no log is written. -/
def silentPrefixed : ExportOptions where
  tablePrefix := "app/"

/-- A directory that an export broke off in: its first table is there in part, and no list. -/
def brokenDirectory : World where
  files.nodes := [(["out"], .directory), (["out", "app"], .directory),
    (["out", "app", "apps.csv"], .file [1]), (["out", "notes"], .file [2])]

/-- The two directories differ in the list of tables and in the first table only. -/
theorem agreeBeside_brokenDirectory : (Target.directory "/out").AgreeBeside
    (artifactNames silentPrefixed [⟨"apps", by decide⟩]) usedDirectory brokenDirectory := by
  refine ⟨["out"], ["out"], rfl, rfl, fun place off => ?_⟩
  have listing : FileSystem.steps "_tables.csv" = ["_tables.csv"] := by cbv
  have table : FileSystem.steps "app/apps.csv" = ["app", "apps.csv"] := by cbv
  have noListing : place ≠ ["_tables.csv"] := by
    simpa [listing] using off "_tables.csv" (by decide) 1 (by decide)
  have noFolder : place ≠ ["app"] := by
    simpa [table] using off "app/apps.csv" (by decide) 1 (by decide)
  have noTable : place ≠ ["app", "apps.csv"] := by
    simpa [table] using off "app/apps.csv" (by decide) 2 (by decide)
  simp [FileSystem.node?, usedDirectory, brokenDirectory, List.find?_cons,
    beq_eq_false_iff_ne.mpr noListing.symm, beq_eq_false_iff_ne.mpr noFolder.symm,
    beq_eq_false_iff_ne.mpr noTable.symm]

theorem exportDatabase_repeats_usedDirectory :
    ∃ summary after other, exportDatabase oneTable.storage (.directory "/out") silentPrefixed none
        usedDirectory = .ok summary after ∧
      (∃ again, exportDatabase oneTable.storage (.directory "/out") silentPrefixed none
        { after with calls := [] } = .ok summary again ∧ after.SameStored again) ∧
      exportDatabase oneTable.storage (.directory "/out") silentPrefixed none
        brokenDirectory = .ok summary other ∧
      (Target.directory "/out").AgreeBeside [] after other := by
  have ran : succeeds (fun summary _ =>
      summary.tables.map TableSummary.table == [⟨"apps", by decide⟩])
      (exportDatabase oneTable.storage (.directory "/out") silentPrefixed none usedDirectory) =
        true := by
    cbv
  have ran' : succeeds (fun _ _ => true) (exportDatabase oneTable.storage (.directory "/out")
      silentPrefixed none brokenDirectory) = true := by
    cbv
  obtain ⟨summary, after, h, tables⟩ := ok_of_succeeds ran
  obtain ⟨result, other, h', -⟩ := ok_of_succeeds ran'
  have here : (Target.directory "/out").Exists usedDirectory.files := by
    unfold Target.Exists
    cbv
  have here' : (Target.directory "/out").Exists brokenDirectory.files := by
    unfold Target.Exists
    cbv
  have plain : ∀ listed, (oneTable.storage.reply [] .listTables).outcome = .ok listed →
      ∀ table ∈ listed, FileSystem.IsPlain (tableArtifact "app/" table) := by
    intro listed outcome table member
    cases outcome
    obtain rfl := List.mem_singleton.mp member
    decide
  obtain ⟨repeats, beside⟩ := @exportDatabase_repeats oneTable.storage (.directory "/out")
    silentPrefixed none summary usedDirectory after rfl here plain h
  rw [beq_iff_eq.mp tables] at beside
  obtain ⟨rfl, agree⟩ :=
    beside brokenDirectory other result rfl here' agreeBeside_brokenDirectory h'
  exact ⟨result, after, other, h, repeats { after with calls := [] } (fun _ => trivial) rfl rfl rfl,
    h', agree⟩

end TableExport
