import TableExport.Csv.Record

/-!
# Buffering records

Units are collected in a buffer of fixed size. When the next unit does not fit,
the buffer is handed over as one chunk and starts again with that unit. A full
buffer waits until something more has to be written.

## Main result

`flatten_fill`: the chunks and what stays in the buffer are together exactly what
was there before followed by the units, so nothing is lost, repeated or moved.
-/
namespace TableExport.Csv

def bufferSize : Nat := 8192

/-- Adds units to a buffer with `room` left, whose bytes come in reverse. -/
def fillFrom (room : Nat) (reversed : Bytes) : List Bytes → List Bytes × Bytes
  | [] => ([], reversed.reverse)
  | unit :: rest =>
    if unit.length ≤ room then fillFrom (room - unit.length) (unit.reverse ++ reversed) rest
    else
      let later := fillFrom (bufferSize - unit.length) unit.reverse rest
      (reversed.reverse :: later.1, later.2)

/-- The chunks handed over while units are added to `held`, and what is held at the end. -/
def fill (held : Bytes) (units : List Bytes) : List Bytes × Bytes :=
  fillFrom (bufferSize - held.length) held.reverse units

theorem flatten_fillFrom (room : Nat) (reversed : Bytes) (units : List Bytes) :
    (fillFrom room reversed units).1.flatten ++ (fillFrom room reversed units).2 =
      reversed.reverse ++ units.flatten := by
  induction units generalizing room reversed with
  | nil => simp [fillFrom]
  | cons unit rest ih =>
    simp only [fillFrom]
    split
    · simp [ih]
    · simp [ih]

theorem flatten_fill (held : Bytes) (units : List Bytes) :
    (fill held units).1.flatten ++ (fill held units).2 = held ++ units.flatten := by
  simp [fill, flatten_fillFrom]

end TableExport.Csv
