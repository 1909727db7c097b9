import TableExport.Csv.Buffer
import TableExport.Export.World

/-!
# Writing records into a sink

Records go through a buffer into a sink. When something fails on the way, what the
buffer still holds is pushed out once more and the sink is flushed; failures of
that clean-up are not reported.
-/
namespace TableExport

/-- A sink under way: what the record buffer holds, the sink, and the world. -/
structure Output where
  held : Bytes
  sink : Sink
  world : World

/-- A step that writes records. -/
abbrev Writing := EStateM (Fault ExportError) Output

namespace Writing

/-- A step that does not write. -/
def run {α : Type} (step : Run α) : Writing α := fun output =>
  match step output.world with
  | .ok a world => .ok a { output with world := world }
  | .error fault world => .error fault { output with world := world }

/-- Pushes the buffer into the sink; says whether all of it was taken. A buffer that
was not taken stays as it is. -/
def push : Writing Bool := fun output =>
  let (taken, sink, files) := output.sink.writeAll output.world.files output.held
  .ok taken
    { held := if taken then [] else output.held
      sink := sink
      world := { output.world with files := files } }

/-- Flushes the sink; says whether that succeeded. -/
def flushSink : Writing Bool := fun output =>
  let (done, sink, files) := output.sink.flush output.world.files
  .ok done { output with sink := sink, world := { output.world with files := files } }

/-- Puts bytes into the empty buffer. -/
def hold (bytes : Bytes) : Writing Unit := modify fun output => { output with held := bytes }

/-- Hands chunks over one by one. A chunk that is not taken stays in the buffer. -/
def handOver (artifact : String) : List Bytes → Writing Unit
  | [] => pure ()
  | chunk :: rest => do
    hold chunk
    if ← push then handOver artifact rest
    else throw (.raised (.write s!"Failed to write record to {artifact}" .refused))

def record (artifact : String) (fields : List String) : Writing Unit := do
  let filled := Csv.fill (← get).held (Csv.recordUnits (fields.map Bytes.ofText))
  handOver artifact filled.1
  hold filled.2

def records (artifact : String) : List (List String) → Writing Unit
  | [] => pure ()
  | fields :: rest => do
    record artifact fields
    records artifact rest

/-- Pushes everything out at the end. -/
def finish (artifact : String) : Writing Unit := do
  let taken ← push
  let flushed ← if taken then flushSink else pure false
  if !flushed then throw (.raised (.write s!"Failed to flush {artifact}" .refused))

/-- The clean-up after a failure. -/
def abandon : Writing Unit := do
  let taken ← push
  if taken then
    let _ ← flushSink
    hold []
  else hold []

/-- Runs the steps that write an artifact and cleans up if one of them fails. A crash
ends everything at once. -/
def guarded {α : Type} (steps : Writing α) : Writing α := fun output =>
  match steps output with
  | .ok a output => .ok a output
  | .error .crash output => .error .crash output
  | .error (.raised error) output =>
    match abandon output with
    | .ok _ output | .error _ output => .error (.raised error) output

end Writing

/-- Writes into a sink as one step of a run. If that fails the sink is given up. -/
def Run.writing {α : Type} (sink : Sink) (steps : Writing α) : Run (α × Sink) := fun world =>
  match steps ⟨[], sink, world⟩ with
  | .ok a output => .ok (a, output.sink) output.world
  | .error .crash output => .error .crash output.world
  | .error (.raised error) output =>
    .error (.raised error)
      { output.world with files := output.sink.release output.world.files }

end TableExport
