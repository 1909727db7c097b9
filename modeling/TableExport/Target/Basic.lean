import TableExport.Export.World

/-!
# Export targets

A target opens a sink for each artifact and completes it: a file is flushed, an
object is uploaded.
-/
namespace TableExport

inductive Target
  | directory (path : String)
  | bucket (store : Bucket) (service : ObjectService)

namespace Target

/-- A directory that must exist already. -/
def ofDirectory (fs : FileSystem) (path : String) : Except ExportError Target :=
  if fs.isDirectory path then .ok (.directory path)
  else .error (.configuration s!"output directory '{path}' does not exist")

def mode : Target → OutputMode
  | .directory _ => .directory
  | .bucket _ _ => .objectStore

/-- Creates the file of an artifact, or empties it. -/
def createFile (path : String) : Run Sink := do
  let world ← get
  match world.files.create? path with
  | none => Run.fail (.write s!"Failed to create file '{path}'" .refused)
  | some (place, files) =>
    set { world with files := files }
    pure (.file place path 0 [])

/-- Opens the file of an artifact, with the directories that its name asks for. -/
def openFile (path : String) : Run Sink := do
  match FileSystem.parent? path with
  | none => pure ()
  | some above =>
    let world ← get
    let (made, files) := world.files.ensureDirectory above
    set { world with files := files }
    if !made then Run.fail (.write s!"Failed to create directory '{above}'" .refused)
  createFile path

def openSink (target : Target) (name : String) (contentType : ContentType) : Run Sink :=
  match target with
  | .directory path => openFile (FileSystem.join path name)
  | .bucket _ _ => pure (.buffer name contentType [])

def commit (target : Target) (sink : Sink) : Run Unit :=
  match sink, target with
  | .file place path offset pending, _ => do
    modify fun world =>
      { world with files := (Sink.file place path offset pending).release world.files }
    Run.report ⟨.info, Log.outputTarget, "Artifact written", [("file", .shown path)]⟩
  | .buffer key contentType bytes, .bucket store service => do
    Run.upload service ⟨store.name, key, contentType, bytes⟩
    Run.report ⟨.info, Log.outputTarget, "Artifact uploaded",
      [("object", .shown key), ("bucket", .shown store.name)]⟩
  | .buffer key _ _, .directory _ =>
    Run.fail (.configuration s!"buffered artifact '{key}' cannot be committed to a directory")
  | .bounded _ _ _, _ => pure ()

end Target

/-- What a run needs of a target: how the sink of an artifact is opened, and how it is
completed. -/
structure Outlet where
  openSink : String → ContentType → Run Sink
  commit : Sink → Run Unit

/-- Writes all bytes of an artifact into a sink. If some are not taken the sink is given up. -/
def Run.fill (name : String) (sink : Sink) (bytes : Bytes) : Run Sink := fun world =>
  match sink.writeAll world.files bytes with
  | (true, sink, files) => .ok sink { world with files := files }
  | (false, sink, files) =>
    .error (.raised (.write s!"Failed to write '{name}'" .refused))
      { world with files := sink.release files }

/-- Stores a complete artifact in one step. -/
def Outlet.store (outlet : Outlet) (name : String) (contentType : ContentType) (bytes : Bytes) :
    Run Unit := do
  let sink ← outlet.openSink name contentType
  let sink ← Run.fill name sink bytes
  outlet.commit sink

namespace Target

def outlet (target : Target) : Outlet := ⟨target.openSink, target.commit⟩

def store (target : Target) : String → ContentType → Bytes → Run Unit := target.outlet.store

end Target

end TableExport
