import TableExport.Error
import TableExport.Table.Value

/-!
# Rows

A row pairs column names with values. It is built column by column from what a
backend decodes, and laid out against a column list when it is written.

## Main definitions

`Row.materialize` reads one backend row; `Row.project` gives its fields.
-/
namespace TableExport

/-- Column names with their values, in column order. -/
structure Row where
  fields : List (String × Value)
  deriving DecidableEq, Repr

namespace Row

def empty : Row := ⟨[]⟩

def push (row : Row) (name : String) (value : Value) : Row := ⟨row.fields ++ [(name, value)]⟩

/-- The value of the first field of this name. -/
def get? (row : Row) (name : String) : Option Value :=
  (row.fields.find? fun field => field.1 == name).map (·.2)

/-- One text per column; empty for a column that the row lacks. -/
def project (row : Row) (columns : List Column) : List String :=
  columns.map fun column => ((row.get? column.name).map Value.render).getD ""

end Row

/-- A row as a backend delivers it: its width, and its values decoded on request. -/
structure RowSource where
  width : Nat
  decode : Nat → ScanKind → Except (Fault Cause) Slot

/-- The fields of the columns from position `index` on, up to the first failure. -/
def RowSource.fields (source : RowSource) (table : String) :
    Nat → List Column → Except (Fault ExportError) (List (String × Value))
  | _, [] => .ok []
  | index, column :: rest =>
    match source.decode index column.kind with
    | .error fault => .error (fault.map (.scan column.name table))
    | .ok slot =>
      match source.fields table (index + 1) rest with
      | .error fault => .error fault
      | .ok fields => .ok ((column.name, slot.value) :: fields)

/-- Reads a backend row against a column list. A row of another width is refused
before anything is decoded. -/
def Row.materialize (source : RowSource) (table : String) (columns : List Column) :
    Except (Fault ExportError) Row :=
  if source.width ≠ columns.length then
    .error (.raised (.rowShape table source.width columns.length))
  else (source.fields table 0 columns).map Row.mk

end TableExport
