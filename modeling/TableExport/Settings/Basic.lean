import TableExport.Error

/-!
# Settings

The settings of a run in three sections, with their defaults.
-/
namespace TableExport

inductive Driver
  | postgres
  | sqlite
  deriving DecidableEq, Repr

namespace Driver

def name : Driver → String
  | .postgres => "postgres"
  | .sqlite => "sqlite3"

/-- Names are compared exactly. -/
def ofName (text : String) : Except ExportError Driver :=
  if text = "postgres" then .ok .postgres
  else if text = "sqlite3" then .ok .sqlite
  else .error (.configuration s!"driver {text} is not supported")

theorem ofName_name (driver : Driver) : ofName driver.name = .ok driver := by
  cases driver <;> rfl

end Driver

structure StorageSettings where
  driver : String := "postgres"
  sqliteSource : String := ""
  username : String := ""
  password : String := ""
  host : String := "localhost"
  port : UInt16 := 5432
  databaseName : String := "aggregator"
  parameters : String := ""
  logQueries : Bool := false
  deriving DecidableEq, Repr

/-- How to reach the object store, and what table artifacts are called. -/
structure ObjectStoreSettings where
  flavor : String := "minio"
  host : String := "127.0.0.1"
  port : UInt16 := 9000
  accessKey : String := ""
  secretKey : String := ""
  useSsl : Bool := false
  bucket : String := ""
  region : String := "us-east-1"
  tablePrefix : String := ""
  deriving DecidableEq, Repr

structure LogSettings where
  debug : Bool := false
  level : String := "info"
  deriving DecidableEq, Repr

structure Settings where
  storage : StorageSettings := {}
  objectStore : ObjectStoreSettings := {}
  logging : LogSettings := {}
  deriving DecidableEq, Repr

end TableExport
