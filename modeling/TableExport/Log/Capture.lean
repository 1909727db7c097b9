import TableExport.Bytes
import TableExport.Log.Filter

/-!
# Log captures

A capture keeps a copy of the log, so that a run can export it. What it holds
depends only on the events reported so far.
-/
namespace TableExport.Log

/-- A copy of the log: its bytes once the given events have been reported. -/
structure Capture where
  contents : List Event → Bytes

namespace Capture

/-- Appends whatever is written; a write is always taken whole. -/
def write (held data : Bytes) : Nat × Bytes := (data.length, held ++ data)

/-- A capture that no event reaches. -/
def fixed (held : Bytes) : Capture := ⟨fun _ => held⟩

/-- One line of text per kept event, with the time of the event in front. The clock
gives the time of each event by its position. -/
def lines (filter : Filter) (clock : Nat → String) : Capture where
  contents events :=
    Bytes.ofText <| String.join <|
      ((events.zipIdx.filter fun (event, _) => filter.keeps event).map fun (event, position) =>
        clock position ++ " " ++ event.line ++ "\n")

end Capture

end TableExport.Log
