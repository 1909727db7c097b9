import TableExport.Decimal.Digits
import TableExport.Text.Padding
import TableExport.Text.Quoted

/-!
# Log events

What a run reports about itself. An event has a level, the part of the program
it comes from, a message and named values.
-/
namespace TableExport.Log

/-- How much an event matters, in rising order. -/
inductive Level
  | trace
  | debug
  | info
  | warn
  | error
  deriving DecidableEq, Repr

namespace Level

def rank : Level → Nat
  | .trace => 0
  | .debug => 1
  | .info => 2
  | .warn => 3
  | .error => 4

def name : Level → String
  | .trace => "TRACE"
  | .debug => "DEBUG"
  | .info => "INFO"
  | .warn => "WARN"
  | .error => "ERROR"

end Level

inductive Datum
  -- Text that a log line shows as it is.
  | shown (text : String)
  -- Text that a log line shows in quotes.
  | literal (text : String)
  | number (n : Int)
  | flag (b : Bool)
  deriving DecidableEq, Repr

def Datum.render : Datum → String
  | .shown text => text
  | .literal text => Text.quoted text
  | .number n => Decimal.integer n
  | .flag b => if b then "true" else "false"

structure Event where
  level : Level
  target : String
  message : String
  data : List (String × Datum)
  deriving DecidableEq, Repr

/-- The event as a line of text, without time and line end. -/
def Event.line (e : Event) : String :=
  Text.padStart 5 e.level.name ++ " " ++ e.target ++ ": " ++ e.message ++
    String.join (e.data.map fun (name, datum) => " " ++ name ++ "=" ++ datum.render)

/-! The parts of the program that report. -/

def commandTarget : String := "aggregator_exporter"
def runTarget : String := "aggregator_exporter_core::exporter"
def outputTarget : String := "aggregator_exporter_core::output"
def uploadTarget : String := "aggregator_exporter_core::output::s3"
def projectionTarget : String := "aggregator_exporter_core::export::projection"
def storageTarget : String := "aggregator_exporter_core::storage"
def sqliteTarget : String := "aggregator_exporter_core::storage::sqlite"
def postgresTarget : String := "aggregator_exporter_core::storage::postgres"
def connectionTarget : String := "aggregator_exporter_core::storage::postgres::connection"

end TableExport.Log
