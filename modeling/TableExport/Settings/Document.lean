import TableExport.Settings.Basic
import TableExport.Toml.Document

/-!
# Settings from a document

Each section is a table with the keys of its settings; missing sections and keys take
their defaults, and unknown ones do not count. A section may also be written as an array
that gives its values in order. A value must have the type of its key.

The parser's reason for refusing a document, which is appended to the message, is left
out.
-/
namespace TableExport

/-- Where the values of a section are looked up: by key, and by position. -/
abbrev Section := String → Nat → Option Toml.Value

/-- The values of a section, unless it is of a type that holds none. -/
def Section.of : Option Toml.Value → Option Section
  | none | some .date => some fun _ _ => none
  | some (.table _ entries) => some fun key _ => Toml.Entries.get? entries key
  | some (.array items) => some fun _ position => items[position]?
  | some (.tables list) =>
    some fun _ position => (list[position]?).map fun entries => .table .header entries
  | some _ => none

namespace Section

/-- The text of a key, or its default. -/
def text (s : Section) (key : String) (position : Nat) (default : String) : Option String :=
  match s key position with
  | none => some default
  | some (.text value) => some value
  | some _ => none

def boolean (s : Section) (key : String) (position : Nat) (default : Bool) : Option Bool :=
  match s key position with
  | none => some default
  | some (.boolean value) => some value
  | some _ => none

def port (s : Section) (key : String) (position : Nat) (default : UInt16) : Option UInt16 :=
  match s key position with
  | none => some default
  | some (.integer n) => if 0 ≤ n ∧ n < 65536 then some (UInt16.ofNat n.toNat) else none
  | some _ => none

end Section

def StorageSettings.ofSection? (s : Section) : Option StorageSettings := do
  let base : StorageSettings := {}
  pure
    { driver := ← s.text "db_driver" 0 base.driver
      sqliteSource := ← s.text "sqlite_datasource" 1 base.sqliteSource
      username := ← s.text "pg_username" 2 base.username
      password := ← s.text "pg_password" 3 base.password
      host := ← s.text "pg_host" 4 base.host
      port := ← s.port "pg_port" 5 base.port
      databaseName := ← s.text "pg_db_name" 6 base.databaseName
      parameters := ← s.text "pg_params" 7 base.parameters
      logQueries := ← s.boolean "log_sql_queries" 8 base.logQueries }

def ObjectStoreSettings.ofSection? (s : Section) : Option ObjectStoreSettings := do
  let base : ObjectStoreSettings := {}
  pure
    { flavor := ← s.text "type" 0 base.flavor
      host := ← s.text "endpoint_url" 1 base.host
      port := ← s.port "endpoint_port" 2 base.port
      accessKey := ← s.text "access_key_id" 3 base.accessKey
      secretKey := ← s.text "secret_access_key" 4 base.secretKey
      useSsl := ← s.boolean "use_ssl" 5 base.useSsl
      bucket := ← s.text "bucket" 6 base.bucket
      region := ← s.text "region" 7 base.region
      tablePrefix := ← s.text "prefix" 8 base.tablePrefix }

def LogSettings.ofSection? (s : Section) : Option LogSettings := do
  let base : LogSettings := {}
  pure
    { debug := ← s.boolean "debug" 0 base.debug
      level := ← s.text "log_level" 1 base.level }

namespace Settings

def ofEntries? (root : Toml.Entries) : Option Settings := do
  let storage ← StorageSettings.ofSection? (← Section.of (root.get? "storage"))
  let objectStore ← ObjectStoreSettings.ofSection? (← Section.of (root.get? "s3"))
  let logging ← LogSettings.ofSection? (← Section.of (root.get? "logging"))
  pure ⟨storage, objectStore, logging⟩

/-- The settings of a document; nothing if it is malformed or a value has a wrong type. -/
def ofDocument? (text : String) : Option Settings := (Toml.parse? text).bind ofEntries?

def ofDocument (text : String) : Except ExportError Settings :=
  match ofDocument? text with
  | some settings => .ok settings
  | none => .error (.configuration "Invalid configuration")

end Settings

end TableExport
