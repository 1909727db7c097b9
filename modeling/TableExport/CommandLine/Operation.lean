import TableExport.CommandLine.Arguments
import TableExport.Export.Run
import TableExport.Storage.Opening

/-!
# Operations

What a command line selects. Of several selected operations the first in this order is
done: version, authors, configuration, check of the object store, export. Text is printed
only when the operation has succeeded.
-/
namespace TableExport

def versionText : String := "Insights Results Aggregator Exporter version 0.1.0"

def authorsText : String := "Pavel Tisnovsky, Red Hat Inc."

/-- What a session finds outside itself. The clock gives the time of each logged event by
its position in the log. -/
structure Surroundings where
  databases : Databases
  objects : ObjectService
  clock : Nat → String
  -- The log of a process is set up once; another session may have done so.
  logTaken : Bool := false

/-- The options of an export. Table artifacts are named as the settings say. -/
def Arguments.exportOptions (arguments : Arguments) (settings : Settings) : ExportOptions where
  limit := arguments.limit
  tablePrefix := settings.objectStore.tablePrefix
  metadata := arguments.exportMetadata
  disabledRules := arguments.exportDisabledRules
  log := arguments.exportLog

/-- The settings as the log shows them, without passwords and secret keys. -/
def Settings.events (settings : Settings) : List Log.Event :=
  let storage := settings.storage
  let store := settings.objectStore
  [⟨.info, Log.commandTarget, "Storage configuration",
      [("driver", .shown storage.driver), ("datasource", .shown storage.sqliteSource),
       ("db_name", .shown storage.databaseName), ("username", .shown storage.username),
       ("host", .shown storage.host), ("port", .number storage.port.toNat),
       ("log_sql_queries", .flag storage.logQueries)]⟩,
   ⟨.info, Log.commandTarget, "Logging configuration",
      [("level", .shown settings.logging.level), ("debug", .flag settings.logging.debug)]⟩,
   ⟨.info, Log.commandTarget, "S3 configuration",
      [("storage_type", .shown store.flavor), ("url", .shown store.host),
       ("port", .number store.port.toNat), ("access_key_id", .shown store.accessKey),
       ("use_ssl", .flag store.useSsl), ("bucket", .shown store.bucket),
       ("region", .shown store.region), ("prefix", .shown store.tablePrefix)]⟩]

namespace Run

def openBucket (settings : ObjectStoreSettings) : Run Bucket := do
  let (bucket, events) ← ofExcept (Bucket.ofSettings settings)
  reportAll events
  pure bucket

def selectTarget (arguments : Arguments) (settings : Settings) (objects : ObjectService) :
    Run Target := do
  match arguments.output with
  | none => fail (.configuration "no output selected, use --output csv or --output s3")
  | some word =>
    match ← ofExcept (OutputMode.ofText word) with
    | .directory =>
      ofExcept (Target.ofDirectory (← get).files arguments.outputDirectory)
    | .objectStore =>
      let bucket ← openBucket settings.objectStore
      pure (.bucket bucket objects)

def checkStore (settings : Settings) (objects : ObjectService) : Run String := do
  let bucket ← openBucket settings.objectStore
  if ← ofExcept (bucket.exists? objects) then
    report ⟨.info, Log.commandTarget, "S3 connection is OK",
      [("bucket", .literal bucket.name), ("endpoint", .literal bucket.endpoint)]⟩
    pure s!"Bucket {bucket.name} is accessible\n"
  else
    fail (.configuration s!"bucket '{bucket.name}' does not exist at {bucket.endpoint}")

/-- What an export needs: the selected target, and the storage that the settings select. -/
def prepareExport (arguments : Arguments) (settings : Settings) (around : Surroundings)
    (capture : Option Log.Capture) : Run (Target × Storage) := do
  let target ← selectTarget arguments settings around.objects
  report ⟨.info, Log.commandTarget, "Starting data export", [("output", .shown target.mode.name)]⟩
  let source ← selectStorage settings.storage
  -- the first question connects the storage, and a run that is refused here asks none
  if arguments.exportLog && capture.isNone then fail uncapturedLog
  else
    let storage ← connect around.databases source
    pure (target, storage)

/-- Exports the configured database to the selected target. -/
def exportSelected (arguments : Arguments) (settings : Settings) (around : Surroundings)
    (capture : Option Log.Capture) : Run Summary := do
  let (target, storage) ← prepareExport arguments settings around capture
  exportDatabase storage target (arguments.exportOptions settings) capture

/-- The printed summary. -/
def print (summary : Summary) : Run String :=
  match summary.printed with
  | .ok text => pure text
  | .error fault => throw fault

/-- Does the selected operation and gives the text to print. -/
def perform (arguments : Arguments) (settings : Settings) (around : Surroundings)
    (capture : Option Log.Capture) : Run String :=
  if arguments.version then pure (versionText ++ "\n")
  else if arguments.authors then pure (authorsText ++ "\n")
  else if arguments.showConfiguration then do
    reportAll settings.events
    pure ""
  else if arguments.checkStore then checkStore settings around.objects
  else do
    let summary ← exportSelected arguments settings around capture
    if arguments.summary then print summary else pure ""

end Run

end TableExport
