import TableExport.Error
import TableExport.Table.Name
import TableExport.Text.LetterCase

/-!
# Artifacts and output modes

The names and content types of artifacts, and the two kinds of targets that a
command line can select.
-/
namespace TableExport

def tablesArtifact : String := "_tables.csv"
def metadataArtifact : String := "_metadata.csv"
/-- The rules disabled more than once. -/
def disabledRulesArtifact : String := "_disabled_rules.csv"
def logArtifact : String := "_logs.txt"

def tableArtifact (namePrefix : String) (table : TableName) : String :=
  namePrefix ++ table.text ++ ".csv"

inductive ContentType
  | csv
  | text
  deriving DecidableEq, Repr

def ContentType.name : ContentType → String
  | .csv => "text/csv"
  | .text => "text/plain"

inductive OutputMode
  | directory
  | objectStore
  deriving DecidableEq, Repr

namespace OutputMode

def name : OutputMode → String
  | .directory => "csv"
  | .objectStore => "s3"

/-- Reads a mode in any letter case. -/
def ofText (text : String) : Except ExportError OutputMode :=
  let word := Text.lower text
  if word = "csv" ∨ word = "file" then .ok .directory
  else if word = "s3" then .ok .objectStore
  else .error (.configuration s!"unknown output type '{text}', expected 'csv' or 's3'")

end OutputMode

end TableExport
