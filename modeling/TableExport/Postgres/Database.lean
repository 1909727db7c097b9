import TableExport.Log.Event
import TableExport.Postgres.Value
import TableExport.Storage.Database

/-!
# PostgreSQL databases

The statements for a PostgreSQL server, and what is answered when there is none.
-/
namespace TableExport.Postgres

/-- The types that `text` reads from their own form. -/
def readTypes : List String :=
  ["BOOL", "INT2", "INT4", "INT8", "FLOAT4", "FLOAT8", "UUID", "TIMESTAMP", "TIMESTAMPTZ",
    "DATE", "TIME", "BYTEA", "TEXT", "VARCHAR", "CHAR", "NAME"]

/-- Whether the server has to cast a column to text before it can be read. -/
def needsCast (column : Column) : Bool :=
  column.kind = .text && !readTypes.contains column.typeName

def selectItem (column : Column) : String :=
  let name := quoteIdentifier column.name
  if needsCast column then name ++ "::text AS " ++ name else name

def selectList (columns : List Column) : String := ", ".intercalate (columns.map selectItem)

def listing : String :=
  "SELECT tablename FROM pg_catalog.pg_tables WHERE schemaname != 'information_schema' AND " ++
  "schemaname != 'pg_catalog'"

/-- What a server answers to the statements; `none` if it refuses. Rows come in their wire
form, with whether the end was reached. -/
structure Server where
  tables : Option (List String)
  columns : TableName → Option (List Column)
  rows : TableName → List Column → Option Nat → List (List Cell) × Bool
  count : TableName → Option Int
  disabledRules : Option (List DisabledRule)

def Server.database (server : Server) : Database where
  driver := .postgres
  target := Log.postgresTarget
  selectList := selectList
  listing := listing
  tables := server.tables
  columns := server.columns
  rows table columns bound :=
    let answer := server.rows table columns bound
    ⟨answer.1.map rowSource, answer.2⟩
  count := server.count
  disabledRules := server.disabledRules

/-- A server that refuses everything. -/
def Server.silent : Server where
  tables := none
  columns _ := none
  rows _ _ _ := ([], false)
  count _ := none
  disabledRules := none

def unreachable : Database := Server.silent.database

end TableExport.Postgres
