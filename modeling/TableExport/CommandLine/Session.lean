import TableExport.CommandLine.ExitStatus
import TableExport.CommandLine.Operation
import TableExport.Log.Console
import TableExport.Settings.Load

/-!
# Sessions

A session is one run of the command: it loads the settings, does what the command line
selects, and ends with a status. A failure is logged; settings that cannot be loaded and a log
that cannot be set up are complained about before there is a log.
-/
namespace TableExport

/-- The variable that selects the events to log, before the settings do. -/
def filterVariable : String := "RUST_LOG"

/-- How the console shows the log: which events, and in which form. -/
structure Console where
  filter : Log.Filter
  format : Log.Format

def Console.ofSettings (settings : LogSettings) (environment : List Variable) : Console where
  filter :=
    .choose ((environment.find? fun entry => entry.1 == filterVariable).map (·.2)) settings.level
  format := if settings.debug then .readable else .json

/-- How a session ended: the text printed, a complaint about the settings, the world it left
behind, and how its log is shown. -/
structure Outcome where
  ending : Ending
  printed : String := ""
  complaint : Option String := none
  world : World
  console : Console

namespace Outcome

/-- The end of an operation. A failure is logged. -/
def ofResult (console : Console) : EStateM.Result (Fault ExportError) World String → Outcome
  | .ok text world => { ending := .exits .ok, printed := text, world := world, console := console }
  | .error .crash world => { ending := .crashes, world := world, console := console }
  | .error (.raised e) world =>
    let event : Log.Event :=
      ⟨.error, Log.commandTarget, "Do selected operation", [("error", .shown e.message)]⟩
    { ending := .exits (.ofError e)
      world := { world with log := world.log ++ [event] }
      console := console }

/-- A session that ends before its operation begins, with a complaint. -/
def early (e : ExportError) (complaint : String) (console : Console) (files : FileSystem) :
    Outcome where
  ending := .exits (.ofError e)
  complaint := some complaint
  world := { files := files }
  console := console

/-- The events that are shown while the session runs. -/
def shown (o : Outcome) : List Log.Event := o.world.log.filter o.console.filter.keeps

end Outcome

/-- The first event of a session: where its settings come from. -/
def Settings.sourceEvent : Option String → Log.Event
  | some path =>
    ⟨.info, Log.commandTarget, "Configuration file parsed", [("filename", .shown path)]⟩
  | none => ⟨.info, Log.commandTarget, "No configuration file found, using defaults", []⟩

/-- Does the selected operation with settings that are loaded already. -/
def runWithSettings (arguments : Arguments) (settings : Settings) (console : Console)
    (around : Surroundings) (capture : Option Log.Capture) (start : World) : Outcome :=
  .ofResult console ((Run.perform arguments settings around capture).run start)

namespace Session

/-- The log is captured if it is to be exported. -/
def capture (arguments : Arguments) (console : Console) (around : Surroundings) :
    Option Log.Capture :=
  if arguments.exportLog then some (.lines console.filter around.clock) else none

/-- The world in which the operation of a session begins. -/
def start (environment : List Variable) (files : FileSystem) : World :=
  { files := files, log := [Settings.sourceEvent (Settings.file? files environment)] }

end Session

/-- The log is set up already. That this is the reason is appended to the message, and left out. -/
def takenLog : ExportError := .configuration "Failed to initialize logging"

def runSession (arguments : Arguments) (environment : List Variable) (files : FileSystem)
    (around : Surroundings) : Outcome :=
  match Settings.load files environment with
  | .error e => .early e s!"Load configuration: {e.message}" (.ofSettings {} environment) files
  | .ok settings =>
    let console := Console.ofSettings settings.logging environment
    if around.logTaken then .early takenLog takenLog.message console files
    else
      runWithSettings arguments settings console around (Session.capture arguments console around)
        (Session.start environment files)

end TableExport
