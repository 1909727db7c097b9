import TableExport.Storage.Basic
import TableExport.Target.ObjectStore
import TableExport.Target.Sink

/-!
# The world of a run

Everything that a run changes or leaves behind: files, uploaded objects, the calls
it made and the events it reported. A step of a run passes the world on, also when
it fails.
-/
namespace TableExport

/-- What a run has done so far. -/
structure World where
  files : FileSystem
  objects : List Upload := []
  attempts : Nat := 0
  calls : List Call := []
  log : List Log.Event := []

/-- A step of a run. -/
abbrev Run := EStateM (Fault ExportError) World

namespace Run

def fail {α : Type} (error : ExportError) : Run α := throw (.raised error)

/-- Goes on with a result that may be an error. -/
def ofExcept {α : Type} : Except ExportError α → Run α
  | .ok a => pure a
  | .error e => fail e

def report (event : Log.Event) : Run Unit :=
  modify fun world => { world with log := world.log ++ [event] }

/-- Asks the storage. The call and its events are on record even if it fails. -/
def ask (storage : Storage) (call : Call) : Run call.Answer := fun world =>
  let reply := storage.reply world.calls call
  let world := { world with calls := world.calls ++ [call], log := world.log ++ reply.events }
  match reply.outcome with
  | .ok answer => .ok answer world
  | .error fault => .error fault world

/-- Uploads one object. A refused upload leaves the objects as they were. -/
def upload (service : ObjectService) (object : Upload) : Run Unit := do
  let world ← get
  set { world with attempts := world.attempts + 1 }
  if service.accepts world.attempts object then
    modify fun world => { world with objects := world.objects ++ [object] }
    report ⟨.debug, Log.uploadTarget, "Object uploaded",
      [("key", .literal object.key), ("bucket", .shown object.bucket),
       ("size", .number object.body.length)]⟩
  else
    fail (.write s!"Failed to upload '{object.key}' to bucket '{object.bucket}'" .refused)

end Run

end TableExport
