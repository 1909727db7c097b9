import TableExport.Proofs.Traversals
import TableExport.Storage.Database

/-!
# Reading cell by cell

A read goes through the rows in order, and through each row from its first column on. Where rows
are made of cells that are decoded one by one, the first cell in this order that cannot be decoded
decides how the read ends, and its column is the one that is named. If there is none, every row is
read with one field per column.
-/
namespace TableExport

/-! ## Slots -/

namespace Value

/-- The value of a kind that NULL becomes. -/
def zero : ScanKind → Value
  | .text => .text ""
  | .bool => .bool false
  | .int64 => .int64 0
  | .float64 => .float64 ⟨0⟩
  | .int32 => .int32 0

end Value

theorem Slot.value_null (kind : ScanKind) : (Slot.null kind).value = Value.zero kind := by
  cases kind <;> rfl

/-! ## Rows of any kind -/

theorem RowSource.fields_error {source : RowSource} {table : String} {columns : List Column}
    {index : Nat} {fault : Fault ExportError}
    (failed : source.fields table index columns = .error fault) :
    ∃ position kind column cause, source.decode position kind = .error cause ∧
      fault = cause.map (.scan column table) := by
  induction columns generalizing index with
  | nil => cases failed
  | cons column rest ih =>
    unfold fields at failed
    split at failed
    next cause undecoded =>
      cases failed
      exact ⟨index, column.kind, column.name, cause, undecoded, rfl⟩
    next slot decoded =>
      split at failed
      next other later =>
        cases failed
        exact ih later
      next => cases failed

/-- A row that cannot be read is a failure of the scan, unless decoding a value ends the process. -/
theorem Row.materialize_error {source : RowSource} {table : String} {columns : List Column}
    {fault : Fault ExportError} (failed : materialize source table columns = .error fault) :
    (∃ e : ExportError, fault = .raised e ∧ e.kind = .scan) ∨
      fault = .crash ∧ ∃ position kind, source.decode position kind = .error .crash := by
  unfold materialize at failed
  split at failed
  next =>
    cases failed
    exact .inl ⟨_, rfl, rfl⟩
  next =>
    cases read : source.fields table 0 columns with
    | ok fields =>
      rw [read] at failed
      cases failed
    | error other =>
      rw [read] at failed
      cases failed
      obtain ⟨position, kind, column, cause, undecoded, rfl⟩ := RowSource.fields_error read
      cases cause with
      | raised cause => exact .inl ⟨_, rfl, rfl⟩
      | crash => exact .inr ⟨rfl, position, kind, undecoded⟩

/-! ## Rows of cells -/

section Cells
variable {α : Type} {decode : ScanKind → α → Except (Fault Cause) Slot}

/-- A row that is made of cells. -/
def RowSource.ofCells (decode : ScanKind → α → Except (Fault Cause) Slot) (cells : List α) :
    RowSource where
  width := cells.length
  decode index kind :=
    match cells[index]? with
    | none => .error (.raised .outOfBounds)
    | some cell => decode kind cell

/-- The field that a column gets from its cell. -/
def Column.field (decode : ScanKind → α → Except (Fault Cause) Slot) (table : String)
    (placed : Column × α) : Except (Fault ExportError) (String × Value) :=
  match decode placed.1.kind placed.2 with
  | .error fault => .error (fault.map (.scan placed.1.name table))
  | .ok slot => .ok (placed.1.name, slot.value)

theorem Column.field_error {table : String} {placed : Column × α} {fault : Fault Cause}
    (failed : decode placed.1.kind placed.2 = .error fault) :
    Column.field decode table placed = .error (fault.map (.scan placed.1.name table)) := by
  simp only [Column.field, failed]

theorem Column.field_ok_iff {table : String} {placed : Column × α} {field : String × Value} :
    Column.field decode table placed = .ok field ↔
      ∃ slot, decode placed.1.kind placed.2 = .ok slot ∧ field = (placed.1.name, slot.value) := by
  unfold Column.field
  split
  next fault failed => simp [failed]
  next slot decoded => simp [decoded, eq_comm]

theorem Column.exists_fields (table : String) {cells : List (Column × α)}
    (readable : ∀ placed ∈ cells, ∃ slot, decode placed.1.kind placed.2 = .ok slot) :
    ∀ placed ∈ cells, ∃ field, Column.field decode table placed = .ok field := by
  intro placed member
  obtain ⟨slot, decoded⟩ := readable placed member
  exact ⟨_, Column.field_ok_iff.mpr ⟨slot, decoded, rfl⟩⟩

/-- The columns from some position on are read from the cells from that position on. -/
theorem fields_ofCells (table : String) (before : List α) {columns : List Column} {cells : List α}
    (wide : cells.length = columns.length) :
    (RowSource.ofCells decode (before ++ cells)).fields table before.length columns =
      (columns.zip cells).mapM (Column.field decode table) := by
  induction columns generalizing before cells with
  | nil => rfl
  | cons column columns ih =>
    obtain _ | ⟨cell, cells⟩ := cells
    · cases wide
    have here : (RowSource.ofCells decode (before ++ cell :: cells)).decode before.length
        column.kind = decode column.kind cell := by
      simp [RowSource.ofCells]
    have behind : (RowSource.ofCells decode (before ++ cell :: cells)).fields table
        (before.length + 1) columns = (columns.zip cells).mapM (Column.field decode table) := by
      have following := ih (before ++ [cell]) (Nat.succ.inj wide)
      rwa [List.append_assoc, List.length_append] at following
    rw [List.zip_cons_cons, List.mapM_cons, RowSource.fields, here, behind]
    cases decoded : decode column.kind cell with
    | error fault =>
      rw [Column.field_error decoded]
      rfl
    | ok slot =>
      rw [Column.field_ok_iff.mpr ⟨slot, decoded, rfl⟩]
      cases (columns.zip cells).mapM (Column.field decode table) <;> rfl

theorem materialize_ofCells (table : String) {columns : List Column} {cells : List α}
    (wide : cells.length = columns.length) :
    Row.materialize (RowSource.ofCells decode cells) table columns =
      ((columns.zip cells).mapM (Column.field decode table)).map Row.mk := by
  have width : ¬(RowSource.ofCells decode cells).width ≠ columns.length := not_not.mpr wide
  have fields := @fields_ofCells α decode table [] columns cells wide
  rw [List.nil_append, List.length_nil] at fields
  rw [Row.materialize, if_neg width, fields]

/-- All cells with their columns, in the order in which they are read. -/
def placedCells (columns : List Column) (rows : List (List α)) : List (Column × α) :=
  rows.flatMap columns.zip

/-- Every field of a row is what its column gets from its cell. -/
def ReadFrom (decode : ScanKind → α → Except (Fault Cause) Slot) (columns : List Column)
    (cells : List α) (row : Row) : Prop :=
  List.Forall₂ (fun (placed : Column × α) field =>
    ∃ slot, decode placed.1.kind placed.2 = .ok slot ∧ field = (placed.1.name, slot.value))
    (columns.zip cells) row.fields

theorem exists_materialized (table : String) {columns : List Column} {cells : List α}
    (wide : cells.length = columns.length)
    (readable : ∀ placed ∈ columns.zip cells, ∃ slot, decode placed.1.kind placed.2 = .ok slot) :
    ∃ row, Row.materialize (RowSource.ofCells decode cells) table columns = .ok row ∧
      ReadFrom decode columns cells row := by
  obtain ⟨found, all⟩ := exists_mapM_ok (Column.exists_fields table readable)
  refine ⟨⟨found⟩, ?_, all.imp fun _ _ => Column.field_ok_iff.mp⟩
  rw [materialize_ofCells table wide, mapM_ok_iff.mpr all, Except.map]

/-- Rows are read if all their cells can be decoded. -/
theorem exists_rows (table : String) {columns : List Column} {rows : List (List α)}
    (wide : ∀ row ∈ rows, row.length = columns.length)
    (readable : ∀ placed ∈ placedCells columns rows,
      ∃ slot, decode placed.1.kind placed.2 = .ok slot) :
    ∃ found, (rows.map (RowSource.ofCells decode)).mapM
        (fun source => Row.materialize source table columns) = .ok found ∧
      List.Forall₂ (ReadFrom decode columns) rows found := by
  induction rows with
  | nil => exact ⟨[], rfl, .nil⟩
  | cons cells rest ih =>
    obtain ⟨wideHere, wideLater⟩ := List.forall_mem_cons.mp wide
    obtain ⟨here, later⟩ := List.forall_mem_append.mp readable
    obtain ⟨row, materialized, read⟩ := exists_materialized table wideHere here
    obtain ⟨found, mapped, reads⟩ := ih wideLater later
    refine ⟨row :: found, ?_, .cons read reads⟩
    rw [List.map_cons, List.mapM_cons, materialized, mapped]
    rfl

/-- The first cell that cannot be decoded ends the read, and its column is named. -/
theorem rows_error (table : String) {columns : List Column} {rows : List (List α)}
    (wide : ∀ row ∈ rows, row.length = columns.length) {front back : List (Column × α)}
    {column : Column} {cell : α} {fault : Fault Cause}
    (split : placedCells columns rows = front ++ (column, cell) :: back)
    (before : ∀ placed ∈ front, ∃ slot, decode placed.1.kind placed.2 = .ok slot)
    (failed : decode column.kind cell = .error fault) :
    (rows.map (RowSource.ofCells decode)).mapM
        (fun source => Row.materialize source table columns) =
      .error (fault.map (.scan column.name table)) := by
  induction rows generalizing front with
  | nil => cases front <;> cases split
  | cons cells rest ih =>
    obtain ⟨wideHere, wideLater⟩ := List.forall_mem_cons.mp wide
    rw [List.map_cons, List.mapM_cons]
    obtain ⟨later, rfl, behind⟩ | ⟨tail, here⟩ := split_cons split
    · obtain ⟨readHere, readLater⟩ := List.forall_mem_append.mp before
      obtain ⟨row, materialized, -⟩ := exists_materialized table wideHere readHere
      rw [materialized, ih wideLater behind readLater]
      rfl
    · have named : Column.field decode table (column, cell) =
          .error (fault.map (.scan column.name table)) := Column.field_error failed
      rw [materialize_ofCells table wideHere, here,
        mapM_error (Column.exists_fields table before) named]
      rfl

end Cells
end TableExport
