import TableExport.Storage.Basic

/-!
# Storages over an SQL database

What an SQL database answers to the statements of an export, and the storage that
sends them. Every statement of a closed storage is refused.
-/
namespace TableExport

/-- The result of a read: rows as they arrive, and whether the end was reached. -/
structure Cursor where
  rows : List RowSource
  complete : Bool

/-- What a database answers to each statement; `none` if it refuses. -/
structure Database where
  driver : Driver
  -- The part of the program that reports reads.
  target : String
  -- The select list of a full read.
  selectList : List Column → String
  listing : String
  tables : Option (List String)
  columns : TableName → Option (List Column)
  rows : TableName → List Column → Option Nat → Cursor
  count : TableName → Option Int
  disabledRules : Option (List DisabledRule)

namespace Database

def statement? (db : Database) : Call → Option String
  | .listTables => some db.listing
  | .describe table => some (Sql.probe table)
  | .readRows table columns limit => some (Sql.select (db.selectList columns) table limit)
  | .countRecords table => some (Sql.count table)
  | .disabledRules => some Sql.disabledRules
  | .close => none

/-- A description must have columns. -/
def described (table : TableName) (columns : List Column) : Reply (List Column) :=
  if columns.isEmpty then
    .quiet (.error (.raised (.metadata s!"no result columns reported for table '{table.text}'")))
  else
    ⟨[⟨.debug, Log.storageTarget, "Described table columns",
        [("table", .shown table.text), ("columns", .number columns.length)]⟩], .ok columns⟩

/-- Reads the rows in order. The first row that cannot be decoded ends the read. -/
def collect (table : TableName) (columns : List Column) (cursor : Cursor) (call : Call) :
    Except (Fault ExportError) (List Row) :=
  match cursor.rows.mapM fun source => Row.materialize source table.text columns with
  | .error fault => .error fault
  | .ok rows =>
    if cursor.complete then .ok rows else .error (.raised (.query call.context .refused))

def answer (db : Database) : (call : Call) → Reply call.Answer
  | .listTables =>
    match db.tables with
    | none => .refused .listTables
    | some names => .quiet (TableName.all names)
  | .describe table =>
    match db.columns table with
    | none => .refused (.describe table)
    | some columns => described table columns
  | .readRows table columns limit =>
    ⟨[], collect table columns (db.rows table columns (Sql.bound limit))
      (.readRows table columns limit)⟩
  | .countRecords table =>
    match db.count table with
    | none => .refused (.countRecords table)
    | some count => .quiet (.ok count)
  | .disabledRules =>
    match db.disabledRules with
    | none => .refused .disabledRules
    | some rules => .quiet (.ok rules)
  | .close => .quiet (.ok ())

/-- What is logged before a statement is sent. -/
def announcement (db : Database) (call : Call) : List Log.Event :=
  match call with
  | .readRows table columns limit =>
    [⟨.debug, db.target, "Reading table content",
      [("table", .shown table.text),
       ("query", .shown (Sql.select (db.selectList columns) table limit))]⟩]
  | _ => []

/-- Whether the statements of a call are refused because of the calls before it. -/
def isClosed (history : List Call) (call : Call) : Bool :=
  history.contains .close && call != .close

/-- The reply to a call after the given ones. -/
def reply (db : Database) (history : List Call) (call : Call) : Reply call.Answer :=
  let reply := if isClosed history call then Reply.refused call else db.answer call
  ⟨db.announcement call ++ reply.events, reply.outcome⟩

def storage (db : Database) : Storage := ⟨db.driver, db.reply⟩

end Database

end TableExport
