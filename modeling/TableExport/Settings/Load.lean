import TableExport.FileSystem.Basic
import TableExport.Settings.Document
import TableExport.Settings.Environment
import TableExport.Text.Utf8

/-!
# Loading settings

The file is the one that a variable names, or the default one if it exists; then the
environment overrides single settings.

The parser's reason for refusing a file, which is appended to the message, is left out.
-/
namespace TableExport

def fileVariable : String := "INSIGHTS_RESULTS_AGGREGATOR_EXPORTER_CONFIG_FILE"

def defaultFile : String := "config.toml"

namespace Settings

/-- The settings file that is read, if any. -/
def file? (files : FileSystem) (environment : List Variable) : Option String :=
  match environment.find? fun entry => entry.1 == fileVariable with
  | some (_, path) => some path
  | none => if files.isFile defaultFile then some defaultFile else none

def ofFile (files : FileSystem) (path : String) : Except ExportError Settings :=
  match (files.read? path).bind Utf8.decode? with
  | none => .error (.io s!"Failed to read configuration file '{path}'" .refused)
  | some text =>
    match ofDocument? text with
    | some settings => .ok settings
    | none => .error (.configuration s!"Invalid configuration file '{path}'")

def load (files : FileSystem) (environment : List Variable) : Except ExportError Settings :=
  match file? files environment with
  | none => ({} : Settings).override environment
  | some path =>
    match ofFile files path with
    | .ok settings => settings.override environment
    | .error e => .error e

end Settings

end TableExport
