import TableExport.FileSystem.Basic
import TableExport.Sqlite.Catalog
import TableExport.Sqlite.DataSource

/-!
# Opening SQLite databases

The database that a data source stands for. How the content of a database file is read
is not decided here.
-/
namespace TableExport.Sqlite

def Catalog.empty : Catalog := { tables := [] }

/-- The database of a data source, and the files once it is open. A source without a path
is a database of its own, as one in memory is. An empty file is an empty database. A missing
file is made only in the mode that says so. -/
def DataSource.connect (source : DataSource) (read : Bytes → Option Catalog)
    (files : FileSystem) : Database × FileSystem :=
  if source.mode = .memory ∨ source.path = "" then (Catalog.empty.database, files)
  else
    match files.read? source.path with
    | some [] => (Catalog.empty.database, files)
    | some content =>
      match read content with
      | some catalog => (catalog.database, files)
      | none => (unavailable, files)
    | none =>
      if source.mode = .create then
        match files.create? source.path with
        | some (_, made) => (Catalog.empty.database, made)
        | none => (unavailable, files)
      else (unavailable, files)

end TableExport.Sqlite
