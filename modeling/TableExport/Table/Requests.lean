import TableExport.Table.Row

/-!
# Requests

What is asked of a row while it is read. The read takes the same course whatever decodes the
values, so the decoder may keep a record of what it was asked for.
-/
namespace TableExport

/-- A value that is asked for: its position, and the kind that it is to be read as. -/
structure Request where
  position : Nat
  kind : ScanKind
  deriving DecidableEq, Repr

/-- What decodes a value, in steps of some kind. -/
abbrev Decoding (m : Type → Type) : Type := Nat → ScanKind → m (Except (Fault Cause) Slot)

/-- Each request is put on record before it is answered. -/
def RowSource.recording (source : RowSource) : Decoding (StateM (List Request)) :=
  fun index kind record => (source.decode index kind, record ++ [⟨index, kind⟩])

namespace Row

section Steps
variable {m : Type → Type} [Monad m]

/-- The fields of the columns from position `index` on, up to the first failure. -/
def fieldsM (decode : Decoding m) (table : String) :
    Nat → List Column → m (Except (Fault ExportError) (List (String × Value)))
  | _, [] => pure (.ok [])
  | index, column :: rest => do
    match ← decode index column.kind with
    | .error fault => pure (.error (fault.map (.scan column.name table)))
    | .ok slot =>
      match ← fieldsM decode table (index + 1) rest with
      | .error fault => pure (.error fault)
      | .ok fields => pure (.ok ((column.name, slot.value) :: fields))

/-- Reads a row of some width against a column list. -/
def materializeM (width : Nat) (decode : Decoding m) (table : String) (columns : List Column) :
    m (Except (Fault ExportError) Row) :=
  if width ≠ columns.length then
    pure (.error (.raised (.rowShape table width columns.length)))
  else do
    let fields ← fieldsM decode table 0 columns
    pure (fields.map Row.mk)

end Steps

/-- Reads a row, and gives all requests that were made for it. -/
def materializeRecorded (source : RowSource) (table : String) (columns : List Column) :
    Except (Fault ExportError) Row × List Request :=
  (materializeM source.width source.recording table columns).run []

end Row

end TableExport
