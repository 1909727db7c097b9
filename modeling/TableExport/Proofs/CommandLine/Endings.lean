import TableExport.CommandLine.Session
import TableExport.Proofs.Export.Causes
import TableExport.Proofs.Export.Summaries
import TableExport.Proofs.Postgres.Extremes

/-!
# How sessions end

All that a session checks before it exports leaves files and objects alone, and so does a listing
that fails. So a session that ends for its configuration has stored nothing. Once the first
artifact is opened a session fails for the storage or for the output, if it does not end the
process: that can only happen where a value of a server is decoded, or where the summary of a
complete export is printed that has a name too long for a field.
-/
namespace TableExport

/-! ## Steps that store nothing -/

/-- A step that stores nothing, however it ends. -/
structure Run.Keeping {α : Type} (step : Run α) : Prop where
  ok : ∀ {world a world'}, step world = .ok a world' → Keeps world world'
  error : ∀ {world fault world'}, step world = .error fault world' → Keeps world world'

theorem Keeps.refl (world : World) : Keeps world world := ⟨rfl, rfl, rfl⟩

namespace Run
variable {α β : Type}

theorem keeping_pure (a : α) : (pure a : Run α).Keeping := by
  constructor
  · intro world a world' h
    cases h
    exact .refl world
  · intro world fault world' h
    cases h

theorem keeping_fail (e : ExportError) : (fail e : Run α).Keeping := by
  constructor
  · intro world a world' h
    cases h
  · intro world fault world' h
    cases h
    exact .refl world

theorem Keeping.bind {step : Run α} {next : α → Run β} (first : step.Keeping)
    (onward : ∀ a, (next a).Keeping) : (step >>= next).Keeping := by
  constructor
  · intro world b world' h
    obtain ⟨a, between, early, late⟩ := bind_ok h
    exact (first.ok early).trans ((onward a).ok late)
  · intro world fault world' h
    obtain early | ⟨a, between, early, late⟩ := bind_error h
    · exact first.error early
    · exact (first.ok early).trans ((onward a).error late)

theorem keeping_get : (get : Run World).Keeping := by
  constructor
  · intro world a world' h
    obtain ⟨-, rfl⟩ := get_ok h
    exact .refl _
  · intro world fault world' h
    cases h

theorem keeping_ofExcept (result : Except ExportError α) : (ofExcept result).Keeping := by
  cases result with
  | ok a => exact keeping_pure a
  | error e => exact keeping_fail e

theorem keeping_reportAll (events : List Log.Event) : (reportAll events).Keeping := by
  constructor
  · intro world a world' h
    cases h
    exact ⟨rfl, rfl, rfl⟩
  · intro world fault world' h
    cases h

theorem keeping_report (event : Log.Event) : (report event).Keeping := by
  constructor
  · intro world a world' h
    rw [report_ok h]
    exact ⟨rfl, rfl, rfl⟩
  · intro world fault world' h
    cases h

/-! ## Before the export -/

theorem keeping_reporting (step : List Log.Event × Except ExportError α) :
    (reporting step).Keeping :=
  (keeping_reportAll _).bind fun _ => keeping_ofExcept _

theorem keeping_openBucket (settings : ObjectStoreSettings) : (openBucket settings).Keeping :=
  (keeping_ofExcept _).bind fun _ => (keeping_reportAll _).bind fun _ => keeping_pure _

theorem keeping_selectTarget (arguments : Arguments) (settings : Settings)
    (objects : ObjectService) : (selectTarget arguments settings objects).Keeping := by
  unfold selectTarget
  cases arguments.output with
  | none => exact keeping_fail _
  | some word =>
    refine (keeping_ofExcept _).bind fun mode => ?_
    cases mode with
    | directory => exact keeping_get.bind fun _ => keeping_ofExcept _
    | objectStore => exact (keeping_openBucket _).bind fun _ => keeping_pure _

theorem keeping_checkStore (settings : Settings) (objects : ObjectService) :
    (checkStore settings objects).Keeping := by
  refine (keeping_openBucket _).bind fun bucket => (keeping_ofExcept _).bind fun there => ?_
  cases there with
  | true => exact (keeping_report _).bind fun _ => keeping_pure _
  | false => exact keeping_fail _

theorem keeping_selectStorage (settings : StorageSettings) : (selectStorage settings).Keeping := by
  refine (keeping_ofExcept _).bind fun driver => ?_
  cases driver with
  | postgres => exact (keeping_reporting _).bind fun _ => keeping_pure _
  | sqlite => exact (keeping_reporting _).bind fun _ => keeping_pure _

end Run

/-! ## Connected databases -/

namespace Sqlite

theorem Stored.decode_ne_crash (values : List Stored) (index : Nat) (kind : ScanKind) :
    (rowSource values).decode index kind ≠ .error .crash := by
  intro crashes
  simp only [rowSource] at crashes
  split at crashes
  next => cases crashes
  next => split at crashes <;> cases crashes

theorem Catalog.not_crashing (catalog : Catalog) : ¬catalog.database.Crashing := by
  rintro ⟨table, columns, bound, source, member, index, kind, crashes⟩
  simp only [database] at member
  split at member
  next found _ =>
    obtain ⟨values, -, rfl⟩ := List.mem_map.mp member
    exact Stored.decode_ne_crash values index kind crashes
  next => cases member

theorem unavailable_not_crashing : ¬unavailable.Crashing := by
  rintro ⟨table, columns, bound, source, member, -⟩
  cases member

/-- Only a database that was not there before is put into a file, and it has no tables. No value
of any database ends the process. -/
theorem DataSource.connect_safe (source : DataSource) (read : Bytes → Option Catalog)
    (files : FileSystem) :
    ((source.connect read files).2 = files ∨ (source.connect read files).1.tables = some []) ∧
      ¬(source.connect read files).1.Crashing := by
  unfold connect
  split
  next => exact ⟨.inl rfl, Catalog.not_crashing _⟩
  next =>
    split
    next => exact ⟨.inl rfl, Catalog.not_crashing _⟩
    next =>
      split
      next => exact ⟨.inl rfl, Catalog.not_crashing _⟩
      next => exact ⟨.inl rfl, unavailable_not_crashing⟩
    next =>
      -- the file is missing, and is made if the mode says so
      split
      next =>
        split
        next => exact ⟨.inr rfl, Catalog.not_crashing _⟩
        next => exact ⟨.inl rfl, unavailable_not_crashing⟩
      next => exact ⟨.inl rfl, unavailable_not_crashing⟩

end Sqlite

/-- An export is prepared: its storage is connected, and its log is captured if it is selected.
The one thing that can have been stored is an empty database. -/
structure Prepared (arguments : Arguments) (settings : Settings) (around : Surroundings)
    (capture : Option Log.Capture) (start : World) (db : Database) (begun : World) : Prop where
  captured : arguments.exportLog = true → capture.isSome = true
  files : begun.files = start.files ∨ db.tables = some []
  objects : begun.objects = start.objects
  attempts : begun.attempts = start.attempts
  -- No database file has a value whose decoding ends the process.
  crashing : db.Crashing → ∃ connection,
    (Postgres.Connection.ofSettings settings.storage).2 = .ok connection ∧
      db = around.databases.ofServer connection

namespace Run

theorem connect_ok {databases : Databases} {source : StorageSource} {storage : Storage}
    {world world' : World} (h : connect databases source world = .ok storage world') :
    ∃ db : Database, storage = db.storage ∧
      (world'.files = world.files ∨ db.tables = some []) ∧
      world'.objects = world.objects ∧ world'.attempts = world.attempts ∧
      (db.Crashing → ∃ connection, source = .server connection ∧
        db = databases.ofServer connection) := by
  cases source with
  | server connection =>
    cases h
    exact ⟨_, rfl, .inl rfl, rfl, rfl, fun _ => ⟨connection, rfl, rfl⟩⟩
  | file source =>
    cases h
    obtain ⟨files, safe⟩ := source.connect_safe databases.ofFile world.files
    exact ⟨_, rfl, files, rfl, rfl, fun crashing => absurd crashing safe⟩

theorem selectStorage_server {settings : StorageSettings} {connection : Postgres.Connection}
    {world world' : World} (h : selectStorage settings world = .ok (.server connection) world') :
    (Postgres.Connection.ofSettings settings).2 = .ok connection := by
  obtain ⟨driver, _, -, rest⟩ := bind_ok h
  cases driver with
  | postgres =>
    obtain ⟨found, _, reported, last⟩ := bind_ok rest
    cases last
    obtain ⟨_, _, -, given⟩ := bind_ok reported
    cases connected : (Postgres.Connection.ofSettings settings).2 with
    | ok other =>
      rw [connected] at given
      cases given
      rfl
    | error e =>
      rw [connected] at given
      cases given
  | sqlite =>
    obtain ⟨_, _, -, last⟩ := bind_ok rest
    cases last

theorem prepareExport_ok {arguments : Arguments} {settings : Settings} {around : Surroundings}
    {capture : Option Log.Capture} {target : Target} {storage : Storage} {start begun : World}
    (h : prepareExport arguments settings around capture start = .ok (target, storage) begun) :
    ∃ db : Database, storage = db.storage ∧
      Prepared arguments settings around capture start db begun := by
  obtain ⟨_, a, selected, rest⟩ := bind_ok h
  obtain ⟨_, b, reported, rest⟩ := bind_ok rest
  obtain ⟨source, c, checked, rest⟩ := bind_ok rest
  have idle := ((keeping_selectTarget _ _ _).ok selected).trans
    (((keeping_report _).ok reported).trans ((keeping_selectStorage _).ok checked))
  split at rest
  next => cases rest
  next captured =>
    obtain ⟨_, d, connected, last⟩ := bind_ok rest
    cases last
    obtain ⟨db, rfl, files, objects, attempts, crashing⟩ := connect_ok connected
    refine ⟨db, rfl, by simpa [Option.isSome_iff_ne_none] using captured, idle.files ▸ files,
      objects.trans idle.objects, attempts.trans idle.attempts, fun crashes => ?_⟩
    obtain ⟨connection, rfl, same⟩ := crashing crashes
    exact ⟨connection, selectStorage_server checked, same⟩

/-- An export that cannot be prepared has stored nothing. -/
theorem prepareExport_error {arguments : Arguments} {settings : Settings} {around : Surroundings}
    {capture : Option Log.Capture} {fault : Fault ExportError} {start world : World}
    (h : prepareExport arguments settings around capture start = .error fault world) :
    Keeps start world := by
  obtain selecting | ⟨_, a, selected, rest⟩ := bind_error h
  · exact (keeping_selectTarget _ _ _).error selecting
  obtain reporting | ⟨_, b, reported, rest⟩ := bind_error rest
  · cases reporting
  have early := ((keeping_selectTarget _ _ _).ok selected).trans ((keeping_report _).ok reported)
  obtain checking | ⟨source, c, checked, rest⟩ := bind_error rest
  · exact early.trans ((keeping_selectStorage _).error checking)
  have idle := early.trans ((keeping_selectStorage _).ok checked)
  split at rest
  next =>
    cases rest
    exact idle
  next =>
    -- a storage can always be connected
    obtain connecting | ⟨_, d, -, last⟩ := bind_error rest
    · cases source <;> cases connecting
    · cases last

end Run

/-! ## Faults and endings -/

/-- How a fault ends the session. -/
def Fault.ending : Fault ExportError → Ending
  | .raised e => .exits (.ofError e)
  | .crash => .crashes

theorem Outcome.ofResult_error (console : Console) (fault : Fault ExportError) (world : World) :
    (ofResult console (.error fault world)).ending = fault.ending ∧
      Keeps world (ofResult console (.error fault world)).world := by
  cases fault with
  | raised e => exact ⟨rfl, rfl, rfl, rfl⟩
  | crash => exact ⟨rfl, .refl world⟩

theorem ExitStatus.ofError_storage {e : ExportError} (kind : e.isStorageError = true) :
    ofError e = .storageError := if_pos kind

theorem ExitStatus.ofError_output {e : ExportError} (kind : e.isOutputError = true) :
    ofError e = .outputError := by
  have write : e.kind = .write := by simpa [ExportError.isOutputError] using kind
  simp [ofError, ExportError.isStorageError, ExportError.isOutputError, write]

theorem ExitStatus.ofError_ne_ok (e : ExportError) : ofError e ≠ .ok := by
  unfold ofError
  split
  · decide
  · split <;> decide

theorem Fault.ending_ne_ok (fault : Fault ExportError) : fault.ending ≠ .exits .ok := by
  cases fault with
  | raised e =>
    intro same
    exact ExitStatus.ofError_ne_ok e (Ending.exits.inj same)
  | crash => decide

theorem LateFault.ending {db : Database} {fault : Fault ExportError} (late : LateFault db fault) :
    fault.ending = .exits .storageError ∨ fault.ending = .exits .outputError ∨
      fault.ending = .crashes ∧ db.Crashing := by
  cases late with
  | storage kind => exact .inl (congrArg Ending.exits (ExitStatus.ofError_storage kind))
  | output kind => exact .inr (.inl (congrArg Ending.exits (ExitStatus.ofError_output kind)))
  | crash crashing => exact .inr (.inr ⟨rfl, crashing⟩)

section Sessions
variable {arguments : Arguments} {settings : Settings} {around : Surroundings}
  {capture : Option Log.Capture} {start world : World} {fault : Fault ExportError}

/-- An export fails while it is prepared, when the tables are listed, or later. -/
theorem Run.exportSelected_error
    (h : exportSelected arguments settings around capture start = .error fault world) :
    prepareExport arguments settings around capture start = .error fault world ∨
      ∃ (target : Target) (db : Database) (begun : World),
        prepareExport arguments settings around capture start = .ok (target, db.storage) begun ∧
        Prepared arguments settings around capture start db begun ∧
        (Keeps begun world ∧ (db.storage.reply begun.calls .listTables).outcome = .error fault ∨
          LateFault db fault) := by
  obtain preparing | ⟨⟨target, storage⟩, begun, prepared, exporting⟩ := bind_error h
  · exact .inl preparing
  · obtain ⟨db, rfl, ready⟩ := prepareExport_ok prepared
    refine .inr ⟨target, db, begun, prepared, ready, ?_⟩
    obtain ⟨selected, none⟩ | broke := exportDatabase_cause exporting
    · -- a log that nobody captured was refused before
      have captured := ready.captured selected
      rw [none] at captured
      cases captured
    · exact broke

/-- A listing can only fail for the configuration if it has a name that no table can have. The
database was there before then. -/
theorem Prepared.keeps {db : Database} {begun : World}
    (prepared : Prepared arguments settings around capture start db begun)
    (failed : (db.storage.reply begun.calls .listTables).outcome = .error fault)
    (ending : fault.ending = .exits .configurationError) : Keeps start begun := by
  refine ⟨?_, prepared.objects, prepared.attempts⟩
  cases Database.reply_error failed with
  | storage kind =>
    rw [Fault.ending, ExitStatus.ofError_storage kind] at ending
    cases ending
  | unnamed tables empty kind =>
    refine prepared.files.resolve_right fun none => ?_
    rw [tables, Option.some.injEq] at none
    rw [none] at empty
    cases empty

/-- Whether a command line selects an export and not one of the operations that come first. -/
def Arguments.isExport (arguments : Arguments) : Bool :=
  !(arguments.version || arguments.authors || arguments.showConfiguration || arguments.checkStore)

/-- An export is complete, and its summary is to be printed but has a name that no field is wide
enough for. -/
def Unprintable (arguments : Arguments) (settings : Settings) (around : Surroundings)
    (capture : Option Log.Capture) (start : World) : Prop :=
  arguments.summary = true ∧ ∃ summary world,
    Run.exportSelected arguments settings around capture start = .ok summary world ∧
    ∃ entry ∈ summary.tables, Text.greatestWidth < entry.table.text.utf8ByteSize

theorem Run.print_error {summary : Summary} (h : print summary start = .error fault world) :
    fault = .crash ∧
      ∃ entry ∈ summary.tables, Text.greatestWidth < entry.table.text.utf8ByteSize := by
  by_cases narrow : ∀ entry ∈ summary.tables,
      entry.table.text.utf8ByteSize ≤ Text.greatestWidth
  · rw [print, summary.printed_ok narrow] at h
    cases h
  · push Not at narrow
    rw [print, summary.printed_crash narrow] at h
    cases h
    exact ⟨rfl, narrow⟩

/-- An operation that is not an export fails only where it checks the store. The summary of an
export that does not fail may not be printable. -/
theorem Run.perform_error
    (h : perform arguments settings around capture start = .error fault world) :
    (arguments.isExport = false ∧ Keeps start world) ∨
      (fault = .crash ∧ Unprintable arguments settings around capture start) ∨
      exportSelected arguments settings around capture start = .error fault world := by
  unfold perform at h
  split at h
  · cases h
  split at h
  · cases h
  split at h
  · -- the settings are reported and shown, which cannot fail
    obtain reporting | ⟨_, _, _, done⟩ := bind_error h
    · cases reporting
    · cases done
  split at h
  next checks =>
    exact .inl ⟨by simp [Arguments.isExport, checks], (keeping_checkStore _ _).error h⟩
  obtain exporting | ⟨summary, after, exported, printing⟩ := bind_error h
  · exact .inr (.inr exporting)
  split at printing
  next shown =>
    obtain ⟨crash, long⟩ := print_error printing
    exact .inr (.inl ⟨crash, shown, summary, after, exported, long⟩)
  next => cases printing

/-- The first artifact is opened: an export is selected and prepared, the tables are listed, and
the sink of their list is open. -/
structure Opens (arguments : Arguments) (settings : Settings) (around : Surroundings)
    (capture : Option Log.Capture) (start : World) : Prop where
  selected : arguments.isExport = true
  opened : ∃ (target : Target) (storage : Storage) (begun : World) (tables : List TableName)
    (listed : World) (sink : Sink) (world : World),
    Run.prepareExport arguments settings around capture start = .ok (target, storage) begun ∧
    Part.Passed storage target.outlet begun [.asking ⟨.listTables, tables⟩] listed ∧
    target.outlet.openSink tablesArtifact .csv listed = .ok sink world

/-- The ending of a session tells what it may have stored. -/
structure Accountable (arguments : Arguments) (settings : Settings) (around : Surroundings)
    (capture : Option Log.Capture) (start : World) (outcome : Outcome) : Prop where
  -- It ends well if its operation does, and every failure of the operation shows.
  ended : outcome.ending = .exits .ok ↔
    ∃ text world, Run.perform arguments settings around capture start = .ok text world
  -- A session that ends for its configuration has stored nothing.
  unchanged : outcome.ending = .exits .configurationError → Keeps start outcome.world
  -- Once the first artifact is opened a session fails for the storage or the output, unless a
  -- value of the server or a name in the printed summary ends the process.
  late : Opens arguments settings around capture start → outcome.ending ≠ .exits .ok →
    outcome.ending = .exits .storageError ∨ outcome.ending = .exits .outputError ∨
    outcome.ending = .crashes ∧ ((∃ connection,
      (Postgres.Connection.ofSettings settings.storage).2 = .ok connection ∧
        (around.databases.ofServer connection).Crashing) ∨
      Unprintable arguments settings around capture start)

theorem Run.perform_unchanged
    (h : perform arguments settings around capture start = .error fault world)
    (ending : fault.ending = .exits .configurationError) : Keeps start world := by
  obtain ⟨-, keeps⟩ | ⟨rfl, -⟩ | exporting := perform_error h
  · exact keeps
  · cases ending
  obtain preparing | ⟨target, db, begun, -, prepared, ⟨keeps, failed⟩ | late⟩ :=
    exportSelected_error exporting
  · exact prepareExport_error preparing
  · exact (prepared.keeps failed ending).trans keeps
  · -- what comes later is no failure of the configuration
    obtain other | other | ⟨other, -⟩ := late.ending <;> cases ending.symm.trans other

theorem Run.perform_late (h : perform arguments settings around capture start = .error fault world)
    (opens : Opens arguments settings around capture start) :
    fault.ending = .exits .storageError ∨ fault.ending = .exits .outputError ∨
      fault.ending = .crashes ∧ ((∃ connection,
        (Postgres.Connection.ofSettings settings.storage).2 = .ok connection ∧
          (around.databases.ofServer connection).Crashing) ∨
        Unprintable arguments settings around capture start) := by
  obtain ⟨selected, target, storage, begun, tables, listed, sink, opened, ready, passed, -⟩ := opens
  obtain ⟨other, -⟩ | ⟨rfl, unprintable⟩ | exporting := perform_error h
  · rw [selected] at other
    cases other
  · exact .inr (.inr ⟨rfl, .inr unprintable⟩)
  obtain preparing | ⟨target', db, begun', prepared, done, fails⟩ := exportSelected_error exporting
  · cases ready.symm.trans preparing
  cases ready.symm.trans prepared
  obtain ⟨-, failed⟩ | late := fails
  · -- the tables were listed
    cases (passed.talks target.outlet_proper).gives.1.symm.trans failed
  obtain storage | output | ⟨crashes, crashing⟩ := late.ending
  · exact .inl storage
  · exact .inr (.inl output)
  · obtain ⟨connection, configured, rfl⟩ := done.crashing crashing
    exact .inr (.inr ⟨crashes, .inl ⟨connection, configured, crashing⟩⟩)

theorem runWithSettings_accountable (console : Console) :
    Accountable arguments settings around capture start
      (runWithSettings arguments settings console around capture start) := by
  cases ran : Run.perform arguments settings around capture start with
  | ok text world =>
    have outcome : runWithSettings arguments settings console around capture start =
        .ofResult console (.ok text world) := congrArg (Outcome.ofResult console) ran
    rw [outcome]
    refine ⟨⟨fun _ => ⟨text, world, ran⟩, fun _ => rfl⟩, ?_, ?_⟩
    · intro configuration
      cases configuration
    · intro _ failed
      exact absurd rfl failed
  | error fault world =>
    have outcome : runWithSettings arguments settings console around capture start =
        .ofResult console (.error fault world) := congrArg (Outcome.ofResult console) ran
    obtain ⟨ending, logged⟩ := Outcome.ofResult_error console fault world
    rw [outcome]
    refine ⟨⟨fun well => ?_, fun done => ?_⟩, ?_, ?_⟩
    · exact absurd (ending.symm.trans well) fault.ending_ne_ok
    · obtain ⟨text, after, done⟩ := done
      cases ran.symm.trans done
    · intro configuration
      exact (Run.perform_unchanged ran (ending.symm.trans configuration)).trans logged
    · intro opens _
      rw [ending]
      exact Run.perform_late ran opens

end Sessions

/-! ## Main result -/

/-- With settings that are given, or loaded where the log can be set up, every session is
accountable. A session that ends earlier has stored nothing either. -/
theorem sessions_accountable (arguments : Arguments) (around : Surroundings) :
    (∀ (settings : Settings) (console : Console) (capture : Option Log.Capture) (start : World),
      Accountable arguments settings around capture start
        (runWithSettings arguments settings console around capture start)) ∧
    ∀ (environment : List Variable) (files : FileSystem),
      ((runSession arguments environment files around).ending = .exits .configurationError →
        (runSession arguments environment files around).world.files = files ∧
        (runSession arguments environment files around).world.objects = []) ∧
      ∀ settings, Settings.load files environment = .ok settings → around.logTaken = false →
        Accountable arguments settings around
          (Session.capture arguments (.ofSettings settings.logging environment) around)
          (Session.start environment files) (runSession arguments environment files around) := by
  refine ⟨fun settings console capture start => runWithSettings_accountable console,
    fun environment files => ?_⟩
  cases loaded : Settings.load files environment with
  | error e =>
    simp only [runSession, loaded]
    exact ⟨fun _ => ⟨rfl, rfl⟩, nofun⟩
  | ok settings =>
    cases taken : around.logTaken with
    | true =>
      simp only [runSession, loaded, taken, if_true]
      exact ⟨fun _ => ⟨rfl, rfl⟩, nofun⟩
    | false =>
      have accountable := @runWithSettings_accountable arguments settings around
        (Session.capture arguments (.ofSettings settings.logging environment) around)
        (Session.start environment files) (.ofSettings settings.logging environment)
      simp only [runSession, loaded, taken, Bool.false_eq_true, if_false]
      constructor
      · intro ending
        obtain ⟨sameFiles, sameObjects, -⟩ := accountable.unchanged ending
        exact ⟨sameFiles, sameObjects⟩
      · rintro _ ⟨⟩ -
        exact accountable

/-! ## A value that ends the process -/

/-- A prepared export that fails ends its session. -/
theorem Run.perform_of_export {arguments : Arguments} {settings : Settings} {around : Surroundings}
    {capture : Option Log.Capture} {start begun world : World} {target : Target} {storage : Storage}
    {fault : Fault ExportError} (selected : arguments.isExport = true)
    (prepared : prepareExport arguments settings around capture start = .ok (target, storage) begun)
    (failed : exportDatabase storage target (arguments.exportOptions settings) capture begun =
      .error fault world) :
    perform arguments settings around capture start = .error fault world := by
  simp only [Arguments.isExport, Bool.not_eq_true', Bool.or_eq_false_iff] at selected
  obtain ⟨⟨⟨version, authors⟩, configuration⟩, store⟩ := selected
  simp only [perform, version, authors, configuration, store, Bool.false_eq_true, if_false,
    exportSelected, bind, EStateM.bind, prepared, failed]

section Infinite
open Postgres (seenColumns seenRows)

/-- A server with one table, which has a timestamp outside the calendar. -/
def infiniteServer : Postgres.Server where
  tables := some ["people"]
  columns _ := some seenColumns
  rows _ _ _ := (seenRows, true)
  count _ := some 2
  disabledRules := some []

def infiniteSurroundings : Surroundings where
  databases := ⟨fun _ => none, fun _ => infiniteServer.database⟩
  objects := .unreachable
  clock _ := ""

def toOut : Arguments where
  output := some "csv"
  outputDirectory := "/out"

def outFiles : FileSystem where
  nodes := [(["out"], .directory)]

theorem load_outFiles : Settings.load outFiles [] = .ok {} := by
  have loaded : (Settings.load outFiles []).toOption = some {} := by decide +kernel
  cases same : Settings.load outFiles [] with
  | ok settings =>
    rw [same] at loaded
    exact congrArg Except.ok (Option.some.inj loaded)
  | error e =>
    rw [same] at loaded
    cases loaded

theorem selectStorage_infinite : ∃ connection, ∀ world : World, ∃ log,
    Run.selectStorage ({} : Settings).storage world =
      .ok (.server connection) { world with log := log } := by
  have checked : (Postgres.Connection.ofSettings {}).2.isOk = true := by decide +kernel
  cases found : (Postgres.Connection.ofSettings {}).2 with
  | ok connection =>
    refine ⟨connection, fun world => ⟨world.log ++ (Postgres.Connection.ofSettings {}).1, ?_⟩⟩
    have reported : Run.reporting (Postgres.Connection.ofSettings {}) world =
        .ok connection
          { world with log := world.log ++ (Postgres.Connection.ofSettings {}).1 } := by
      unfold Run.reporting
      rw [found]
      rfl
    show (Run.reporting (Postgres.Connection.ofSettings {}) >>= fun c =>
      pure (StorageSource.server c)) world = _
    simp only [bind, EStateM.bind, reported]
    rfl
  | error e =>
    rw [found] at checked
    cases checked

theorem prepareExport_infinite (log : List Log.Event) :
    ∃ log', Run.prepareExport toOut {} infiniteSurroundings none ⟨outFiles, [], 0, [], log⟩ =
      .ok (.directory "/out", infiniteServer.database.storage) ⟨outFiles, [], 0, [], log'⟩ := by
  obtain ⟨connection, source⟩ := selectStorage_infinite
  have selected : Run.selectTarget toOut {} infiniteSurroundings.objects
      ⟨outFiles, [], 0, [], log⟩ = .ok (.directory "/out") ⟨outFiles, [], 0, [], log⟩ := rfl
  obtain ⟨log', checked⟩ := source ⟨outFiles, [], 0, [], log ++ [⟨.info, Log.commandTarget,
    "Starting data export", [("output", .shown (Target.directory "/out").mode.name)]⟩]⟩
  refine ⟨log', ?_⟩
  unfold Run.prepareExport
  simp only [bind, EStateM.bind, selected, Run.report, modify, modifyGet, MonadStateOf.modifyGet,
    EStateM.modifyGet, checked]
  rfl

theorem exportDatabase_infinite (log : List Log.Event) :
    ∃ after, exportDatabase infiniteServer.database.storage (.directory "/out") {} none
        ⟨outFiles, [], 0, [], log⟩ = .error .crash after ∧
      after.files.content? ["out", "people.csv"] = some [] := by
  have crashed : fails (fun fault after => decide (fault = .crash) &&
        decide (after.files.content? ["out", "people.csv"] = some []))
      (exportDatabase infiniteServer.database.storage (.directory "/out") {} none
        ⟨outFiles, [], 0, [], log⟩) = true := by
    cbv
  obtain ⟨fault, after, ran, facts⟩ := error_of_fails crashed
  obtain ⟨rfl, written⟩ : fault = .crash ∧
      after.files.content? ["out", "people.csv"] = some [] := by
    simpa using facts
  exact ⟨after, ran, written⟩

theorem opens_infinite :
    Opens toOut {} infiniteSurroundings none (Session.start [] outFiles) := by
  obtain ⟨log, prepared⟩ := prepareExport_infinite (Session.start [] outFiles).log
  have asked : Run.ask infiniteServer.database.storage .listTables ⟨outFiles, [], 0, [], log⟩ =
      .ok [Postgres.people] ⟨outFiles, [], 0, [.listTables], log ++ []⟩ := rfl
  obtain ⟨talks, keeps⟩ := Run.ask_ok asked
  have opened : succeeds (fun _ _ => true) ((Target.directory "/out").outlet.openSink tablesArtifact
      .csv ⟨outFiles, [], 0, [.listTables], log ++ []⟩) = true := by
    cbv
  obtain ⟨sink, world, opened, -⟩ := ok_of_succeeds opened
  exact ⟨rfl, _, _, _, _, _, sink, world, prepared, .one (.asking talks keeps), opened⟩

theorem runSession_infinite :
    ∃ after, runSession toOut [] outFiles infiniteSurroundings =
        .ofResult (.ofSettings {} []) (.error .crash after) ∧
      after.files.content? ["out", "people.csv"] = some [] := by
  obtain ⟨log, prepared⟩ := prepareExport_infinite (Session.start [] outFiles).log
  obtain ⟨after, failed, written⟩ := exportDatabase_infinite log
  have ran := @Run.perform_of_export toOut {} infiniteSurroundings none _ _ _ _ _ _ rfl prepared
    failed
  refine ⟨after, ?_, written⟩
  simp only [runSession, load_outFiles]
  exact congrArg (Outcome.ofResult _) ran

/-- The session crashes when its first artifact is complete and the second is open. -/
theorem runSession_crashes :
    Opens toOut {} infiniteSurroundings none (Session.start [] outFiles) ∧
      (runSession toOut [] outFiles infiniteSurroundings).ending = .crashes ∧
      (runSession toOut [] outFiles infiniteSurroundings).world.files.content?
        ["out", "people.csv"] = some [] := by
  obtain ⟨after, crashed, written⟩ := runSession_infinite
  rw [crashed]
  exact ⟨opens_infinite, rfl, written⟩

/-- Without an output nothing is stored; with one the crash is that of a value of the server. -/
theorem sessions_accountable_infinite :
    Keeps (Session.start [] outFiles) (runWithSettings {} {} (.ofSettings {} [])
      infiniteSurroundings none (Session.start [] outFiles)).world ∧
    ∃ connection, (Postgres.Connection.ofSettings {}).2 = .ok connection ∧
      (infiniteSurroundings.databases.ofServer connection).Crashing := by
  constructor
  · exact ((sessions_accountable {} infiniteSurroundings).1 {} (.ofSettings {} []) none
      (Session.start [] outFiles)).unchanged rfl
  · have accountable := ((sessions_accountable toOut infiniteSurroundings).2 [] outFiles).2 {}
      load_outFiles rfl
    obtain ⟨after, crashed, -⟩ := runSession_infinite
    rw [crashed] at accountable
    -- a crash is neither of the two statuses, and no summary is to be printed
    obtain other | other | ⟨-, server | ⟨shown, -⟩⟩ := accountable.late opens_infinite nofun
    · cases other
    · cases other
    · exact server
    · cases shown

end Infinite

end TableExport
