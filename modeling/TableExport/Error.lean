/-!
# Failures of an export

Each failure has a kind, a text that says what was being done, and mostly a
cause from below. Failures are classified by their kind alone.

A driver or a parser that refuses settings gives a reason in words of its own. The
message then goes on with a colon and these words. They are not modelled: the text of
such a failure ends before them, so nothing is said here about what they show.
-/
namespace TableExport

/-- What went wrong, by the part that failed. -/
inductive ErrorKind
  | query
  | metadata
  | scan
  | write
  | configuration
  | connection
  | io
  deriving DecidableEq, Repr

def ErrorKind.title : ErrorKind → String
  | .query => "Query execution failed"
  | .metadata => "Column metadata unavailable"
  | .scan => "Row scan failed"
  | .write => "Write failed"
  | .configuration => "Configuration error"
  | .connection => "Connection failed"
  | .io => "I/O operation failed"

/-- What stopped a step below the export itself. -/
inductive Cause
  -- A row has another number of columns than its table.
  | rowShape (actual expected : Nat)
  -- A value is not of the kind asked for, or is malformed.
  | unreadable
  -- A row has no column at the position asked for.
  | outOfBounds
  -- A database, a disk, a sink or an object store refused.
  | refused
  -- A reason given in words.
  | reason (text : String)
  deriving DecidableEq, Repr

def Cause.message : Cause → String
  | .rowShape actual expected => s!"row has {actual} columns, expected {expected}"
  | .unreadable => "value cannot be decoded"
  | .outOfBounds => "column index out of bounds"
  | .refused => "refused"
  | .reason text => text

structure ExportError where
  kind : ErrorKind
  context : String
  cause : Option Cause := none
  deriving DecidableEq, Repr

namespace ExportError

/-- The one line that names the failure. -/
def message (e : ExportError) : String := e.kind.title ++ ": " ++ e.context

def query (context : String) (cause : Cause) : ExportError := ⟨.query, context, some cause⟩

/-- A table whose columns are not known. -/
def metadata (context : String) : ExportError := ⟨.metadata, context, none⟩

/-- A value that cannot be read. -/
def scan (column table : String) (cause : Cause) : ExportError :=
  ⟨.scan, s!"Failed to decode column '{column}' of table '{table}'", some cause⟩

/-- A row whose width is not that of its table. -/
def rowShape (table : String) (actual expected : Nat) : ExportError :=
  ⟨.scan, s!"Unexpected row shape in table '{table}'", some (.rowShape actual expected)⟩

/-- A sink or an upload that failed. -/
def write (context : String) (cause : Cause) : ExportError := ⟨.write, context, some cause⟩

def configuration (text : String) : ExportError := ⟨.configuration, text, none⟩

def connection (context : String) (cause : Cause) : ExportError :=
  ⟨.connection, context, some cause⟩

def io (context : String) (cause : Cause) : ExportError := ⟨.io, context, some cause⟩

/-- Whether the failure comes from the database or from connecting to a service. -/
def isStorageError (e : ExportError) : Bool :=
  match e.kind with
  | .query | .metadata | .scan | .connection => true
  | _ => false

def isOutputError (e : ExportError) : Bool := e.kind = .write

end ExportError

/-- How a step can end early: with a failure that is reported, or with a crash of
the whole process. -/
inductive Fault (ε : Type)
  | raised (error : ε)
  | crash
  deriving DecidableEq, Repr

/-- A reported failure seen from one level up. -/
def Fault.map {ε ε' : Type} (f : ε → ε') : Fault ε → Fault ε'
  | .raised error => .raised (f error)
  | .crash => .crash

end TableExport
