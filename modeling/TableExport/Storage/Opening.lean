import TableExport.Export.World
import TableExport.Postgres.Connection
import TableExport.Sqlite.Opening

/-!
# Opening storages

The storage that the settings select. What stands behind a database file or a server
address is part of the surroundings of a run.
-/
namespace TableExport

/-- The databases that a run can reach: the one in a file of some content, and the one
at a server address. -/
structure Databases where
  ofFile : Bytes → Option Sqlite.Catalog
  ofServer : Postgres.Connection → Database

/-- What the settings select: a server or a database file that is still to be connected. -/
inductive StorageSource
  | server (connection : Postgres.Connection)
  | file (source : Sqlite.DataSource)

namespace Run

def reportAll (events : List Log.Event) : Run Unit :=
  modify fun world => { world with log := world.log ++ events }

/-- Reports what was logged on the way to a result, and goes on with the result. -/
def reporting {α : Type} (step : List Log.Event × Except ExportError α) : Run α := do
  reportAll step.1
  ofExcept step.2

/-- Checks the settings of a storage. Nothing is connected. -/
def selectStorage (settings : StorageSettings) : Run StorageSource := do
  match ← ofExcept (Driver.ofName settings.driver) with
  | .postgres => pure (.server (← reporting (Postgres.Connection.ofSettings settings)))
  | .sqlite => pure (.file (← reporting (Sqlite.DataSource.ofSettings settings)))

/-- Connects a storage, as the first question to it does. -/
def connect (databases : Databases) : StorageSource → Run Storage
  | .server connection => pure (databases.ofServer connection).storage
  | .file source => do
    let world ← get
    let (database, files) := source.connect databases.ofFile world.files
    set { world with files := files }
    pure database.storage

end Run

end TableExport
