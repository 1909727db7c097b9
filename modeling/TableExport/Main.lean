import Std.Time.DateTime.Timestamp
import TableExport.Calendar
import TableExport.CommandLine.Session
import TableExport.Postgres.Database

/-!
# The command

Reads arguments, environment and files, runs a session on them, and carries out what the
session did: its lines are printed and its files written.

No database engine, server protocol or object store client is part of the program. Of
database files only empty ones can be opened, and no server and no object store is reached.
-/
namespace TableExport.Command

def help : String :=
  "Exports all tables from the aggregator database into CSV files\n\n" ++
  "Usage: aggregator-exporter [OPTIONS]\n\n" ++
  "Options:\n" ++
  "      --version                Show version\n" ++
  "      --authors                Show authors\n" ++
  "      --show-configuration     Show configuration (passwords are omitted)\n" ++
  "      --check-s3-connection    Check that the configured S3 bucket is reachable\n" ++
  "      --output <TYPE>          Output to: csv (local directory) or s3\n" ++
  "      --output-dir <DIR>       Directory for CSV output [default: .]\n" ++
  "      --limit <N>              Maximum number of rows exported per table (0 = all)\n" ++
  "      --summary                Print summary table after export\n" ++
  "      --export-metadata        Export record counts of all tables into _metadata.csv\n" ++
  "      --export-disabled-rules  Export disabled rules into _disabled_rules.csv\n" ++
  "      --export-log             Export the log of this run into _logs.txt\n" ++
  "  -h, --help                   Print help\n"

def usage : UsageError → String
  | .unknownArgument => "error: unexpected argument"
  | .malformedValue => "error: invalid value for '--limit <N>'"
  | .missingValue => "error: a value is required"
  | .repeated => "error: an argument cannot be used multiple times"
  | .unexpectedValue => "error: unexpected value for an argument that takes none"
  | .helpRequested => help

/-- The environment in the form in which the system keeps it. -/
def readEnvironment (content : Bytes) : List Variable :=
  (content.splitBy fun a b => a != 0 && b != 0).filterMap fun piece =>
    match piece.span (· != 0x3d) with
    | (name, _ :: value) =>
      match Utf8.decode? name, Utf8.decode? value with
      | some name, some value => some (name, value)
      | _, _ => none
    | (_, []) => none

def contentOf? (path : String) : IO (Option Bytes) := do
  try
    let content ← IO.FS.readBinFile path
    pure (some content.data.toList)
  catch _ => pure none

def isDirectory (path : String) : IO Bool := do
  try
    let _ ← IO.FS.Handle.mk (path ++ "/.") .read
    pure true
  catch _ => pure false

def pathOf (place : Place) : String := "/" ++ "/".intercalate place

/-- Adds the directories on the way to a place, as far as they exist. -/
def lookUp (files : FileSystem) : Place → List String → IO FileSystem
  | _, [] => pure files
  | above, name :: rest => do
    let place := above ++ [name]
    if ← isDirectory (pathOf place) then lookUp (files.set place .directory) place rest
    else pure files

/-- The names that lead to a path, with dots followed. -/
def placeOf (current : Place) (path : String) : Place :=
  (FileSystem.steps path).foldl
    (fun place name =>
      if name = "." then place else if name = ".." then place.dropLast else place ++ [name])
    (if FileSystem.isAbsolute path then [] else current)

/-- Adds what stands at a path: the directories on the way, and the file at its end. -/
def look (files : FileSystem) (path : String) : IO FileSystem := do
  let place := placeOf files.current path
  let files ← lookUp files [] place
  match ← contentOf? (pathOf place) with
  | some content => pure (files.set place (.file content))
  | none => pure files

/-- Carries a change of the files out; says whether the system let it happen. -/
def carryOut (before : FileSystem) (change : Place × Node) : IO Bool := do
  if before.node? change.1 = some change.2 then return true
  try
    match change.2 with
    | .directory => IO.FS.createDirAll (pathOf change.1)
    | .file content => IO.FS.writeBinFile (pathOf change.1) ⟨content.toArray⟩
    pure true
  catch _ => pure false

def timeNow : IO String := do
  let now ← Std.Time.Timestamp.now
  let seconds := now.toSecondsSinceUnixEpoch.val
  let day := seconds.fdiv 86400
  pure (String.ofList (Calendar.Instant.text ⟨day, (seconds.fmod 86400).toNat * 1000000000⟩))

def run (arguments : Arguments) : IO UInt32 := do
  let environment := readEnvironment ((← contentOf? "/proc/self/environ").getD [])
  let current := (toString (← IO.currentDir))
  let files : FileSystem := { nodes := [], current := FileSystem.steps current }
  let files ← look files defaultFile
  let files ← match environment.find? fun entry => entry.1 == fileVariable with
    | some (_, path) => look files path
    | none => pure files
  let files ← look files arguments.outputDirectory
  let files ← match Settings.load files environment with
    | .ok settings => do
      let files ← look files
        (FileSystem.join arguments.outputDirectory settings.objectStore.tablePrefix)
      match Sqlite.DataSource.ofText? settings.storage.sqliteSource with
      | some source => look files source.path
      | none => pure files
    | .error _ => pure files
  let time ← timeNow
  let around : Surroundings :=
    { databases := { ofFile := fun _ => none, ofServer := fun _ => Postgres.unreachable }
      objects := .unreachable
      clock := fun _ => time }
  let outcome := runSession arguments environment files around
  for event in outcome.shown do
    IO.eprintln (outcome.console.format.render time event)
  match outcome.complaint with
  | some text => IO.eprintln text
  | none => pure ()
  let mut written := true
  for change in outcome.world.files.nodes do
    let carried ← carryOut files change
    written := written && carried
  IO.print outcome.printed
  pure (if written then outcome.ending.code.toUInt32 else ExitStatus.outputError.code.toUInt32)

end TableExport.Command

/-- The command. Help is an answer; any other refusal of the command line ends with the
status 2. -/
def main (args : List String) : IO UInt32 := do
  match TableExport.Arguments.parse args with
  | .ok arguments => TableExport.Command.run arguments
  | .error .helpRequested => do
    IO.print TableExport.Command.help
    pure 0
  | .error fault => do
    IO.eprintln (TableExport.Command.usage fault)
    pure 2
