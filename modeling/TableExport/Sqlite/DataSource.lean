import TableExport.Log.Event
import TableExport.Settings.Basic
import TableExport.Url.Form

/-!
# SQLite data sources

A data source names a database file or a database in memory, with optional
parameters. Nothing is opened here.

The driver's reason for refusing a data source, which is appended to the message, is
left out.
-/
namespace TableExport.Sqlite

inductive OpenMode
  | readOnly
  | readWrite
  | create
  | memory
  deriving DecidableEq, Repr

/-- A checked data source: the text that names it, the path in it, and the mode. -/
structure DataSource where
  text : String
  path : String
  mode : OpenMode
  deriving DecidableEq, Repr

/-- Takes a text away from the front as often as it stands there. The count bounds how
often that can be. -/
def dropFront (front : List Char) : Nat → List Char → List Char
  | 0, cs => cs
  | fuel + 1, cs => if front.isPrefixOf cs then dropFront front fuel (cs.drop front.length) else cs

/-- The data source without the names of its scheme. -/
def withoutScheme (cs : List Char) : List Char :=
  let bare := dropFront "sqlite://".toList cs.length cs
  dropFront "sqlite:".toList bare.length bare

/-- The mode after one parameter, unless its name or value is not known. -/
def applyParameter (mode : OpenMode) (parameter : String × String) : Option OpenMode :=
  match parameter with
  | ("mode", "ro") => some .readOnly
  | ("mode", "rw") => some mode
  | ("mode", "rwc") => some .create
  | ("mode", "memory") => some .memory
  | ("cache", "private") | ("cache", "shared") => some mode
  | ("immutable", value) => if ["true", "1", "false", "0"].contains value then some mode else none
  | ("vfs", _) => some mode
  | _ => none

/-- Reads a data source: a path, which is percent-encoded, and parameters after the
first question mark. -/
def DataSource.ofText? (text : String) : Option DataSource := do
  let cs := withoutScheme text.toList
  let pathText := cs.takeWhile (· ≠ '?')
  let parameters := Url.formPairs ((cs.dropWhile (· ≠ '?')).drop 1)
  let inMemory := pathText = ":memory:".toList
  let path ← if inMemory then some ":memory:" else Utf8.decode? (Url.decode pathText)
  let mode ← parameters.foldlM applyParameter (if inMemory then .memory else .readWrite)
  pure ⟨text, path, mode⟩

/-- The configured data source and what is logged on the way. The event is reported even
if the data source is refused after it. -/
def DataSource.ofSettings (s : StorageSettings) : List Log.Event × Except ExportError DataSource :=
  if s.sqliteSource = "" then
    ([], .error (.configuration "sqlite_datasource must be set when db_driver is sqlite3"))
  else
    let event : Log.Event := ⟨.info, Log.sqliteTarget, "Making connection to data storage",
      [("driver", .literal "sqlite3"), ("datasource", .shown s.sqliteSource)]⟩
    match DataSource.ofText? s.sqliteSource with
    | some source => ([event], .ok source)
    | none => ([event], .error (.configuration s!"Invalid SQLite data source '{s.sqliteSource}'"))

def DataSource.diagnostic (source : DataSource) : String :=
  "SqliteStorage \x7b data_source: " ++ Text.quoted source.text ++ ", .. \x7d"

end TableExport.Sqlite
