import Mathlib
import TableExport.Proofs.Table.Cells

/-!
# Fields by position and by name

A row is decoded by position and laid out by name, and of several fields with one name the first
is found. So the layout has the texts of the decoded values in their order exactly if columns that
share a name show the same text; distinct names are the usual case of that.
-/
namespace TableExport

/-! ## Rows by position -/

/-- The values that are decoded for columns in a row, the first of which is at a position. -/
def RowSource.Decodes (source : RowSource) (index : Nat) (columns : List Column)
    (values : List Value) : Prop :=
  List.Forall₂ (fun (placed : Column × Nat) value =>
    ∃ slot, source.decode placed.2 placed.1.kind = .ok slot ∧ value = slot.value)
    (columns.zipIdx index) values

theorem RowSource.Decodes.length {source : RowSource} {index : Nat} {columns : List Column}
    {values : List Value} (decodes : source.Decodes index columns values) :
    columns.length = values.length := by
  rw [← List.Forall₂.length_eq decodes, List.length_zipIdx]

theorem RowSource.fields_ok_iff {source : RowSource} {table : String} {columns : List Column}
    {index : Nat} {fields : List (String × Value)} :
    source.fields table index columns = .ok fields ↔
      ∃ values, source.Decodes index columns values ∧
        fields = (columns.map Column.name).zip values := by
  induction columns generalizing index fields with
  | nil =>
    constructor
    · intro read
      cases read
      exact ⟨[], .nil, rfl⟩
    · rintro ⟨values, decodes, rfl⟩
      rfl
  | cons column rest ih =>
    rw [RowSource.fields]
    constructor
    · intro read
      split at read
      next => cases read
      next slot decoded =>
        split at read
        next => cases read
        next later behind =>
          cases read
          obtain ⟨values, decodes, rfl⟩ := ih.mp behind
          exact ⟨slot.value :: values, .cons ⟨slot, decoded, rfl⟩ decodes, rfl⟩
    · rintro ⟨values, decodes, rfl⟩
      obtain _ | ⟨⟨slot, decoded, rfl⟩, later⟩ := decodes
      rw [decoded, ih.mpr ⟨_, later, rfl⟩]
      rfl

/-- A row is read if it has a value for each column, and each is of the kind asked for. -/
theorem Row.materialize_ok_iff {source : RowSource} {table : String} {columns : List Column}
    {row : Row} : Row.materialize source table columns = .ok row ↔
      source.width = columns.length ∧ ∃ values, source.Decodes 0 columns values ∧
        row = ⟨(columns.map Column.name).zip values⟩ := by
  unfold materialize
  by_cases wide : source.width = columns.length
  · rw [if_neg (not_not.mpr wide)]
    constructor
    · intro read
      cases fields : source.fields table 0 columns with
      | error fault =>
        rw [fields] at read
        cases read
      | ok found =>
        rw [fields] at read
        cases read
        obtain ⟨values, decodes, rfl⟩ := RowSource.fields_ok_iff.mp fields
        exact ⟨wide, values, decodes, rfl⟩
    · rintro ⟨-, values, decodes, rfl⟩
      rw [RowSource.fields_ok_iff.mpr ⟨values, decodes, rfl⟩]
      rfl
  · rw [if_pos wide]
    exact ⟨nofun, fun read => absurd read.1 wide⟩

/-! ## Rows by name -/

/-- The first field of a name is the one that is found. -/
theorem Row.get?_zip {names : List String} {values : List Value}
    (wide : names.length = values.length) (name : String) :
    Row.get? ⟨names.zip values⟩ name = values[names.idxOf name]? := by
  induction names generalizing values with
  | nil =>
    obtain rfl := List.eq_nil_of_length_eq_zero wide.symm
    rfl
  | cons first names ih =>
    obtain _ | ⟨value, values⟩ := values
    · cases wide
    simp only [Row.get?, List.zip_cons_cons, List.find?_cons, List.idxOf_cons] at ih ⊢
    cases here : first == name with
    | true => rfl
    | false => exact ih (Nat.succ.inj wide)

/-- The position of the first column that has the name of a column. -/
def firstNamed (columns : List Column) (column : Column) : Nat :=
  (columns.map Column.name).idxOf column.name

theorem firstNamed_lt {columns : List Column} {column : Column} (member : column ∈ columns) :
    firstNamed columns column < columns.length := by
  have named : column.name ∈ columns.map Column.name := List.mem_map_of_mem member
  simpa [firstNamed] using List.idxOf_lt_length_of_mem named

theorem name_firstNamed {columns : List Column} {column : Column} (member : column ∈ columns) :
    columns[firstNamed columns column]?.map Column.name = some column.name := by
  have named : column.name ∈ columns.map Column.name := List.mem_map_of_mem member
  have found := List.getElem?_idxOf named
  rwa [List.getElem?_map] at found

/-- Columns of one name have one first position. -/
theorem firstNamed_congr {columns : List Column} {a b : Column} (same : a.name = b.name) :
    firstNamed columns a = firstNamed columns b := by
  rw [firstNamed, firstNamed, same]

theorem Row.project_zip {columns : List Column} {values : List Value}
    (wide : columns.length = values.length) {i : Nat} {column : Column}
    (here : columns[i]? = some column) :
    (Row.project ⟨(columns.map Column.name).zip values⟩ columns)[i]? =
      (values.map Value.render)[firstNamed columns column]? := by
  have inside := firstNamed_lt (List.mem_of_getElem? here)
  have found := @Row.get?_zip (columns.map Column.name) values (by simpa using wide) column.name
  rw [Row.project, List.getElem?_map, here, Option.map_some, found, List.getElem?_map]
  have present := List.getElem?_eq_getElem (wide ▸ inside)
  unfold firstNamed at present ⊢
  rw [present]
  rfl

/-- Columns that share a name show the same text. -/
def AgreeByName (columns : List Column) (texts : List String) : Prop :=
  ∀ (i j : Nat) (a b : Column), columns[i]? = some a → columns[j]? = some b → a.name = b.name →
    texts[i]? = texts[j]?

/-! ## Main result -/

/-- A row that has been read is laid out with one field per column, which is the text of the value
decoded at the first position of that column's name. So the fields are the texts of the decoded
values, position by position, exactly if columns that share a name show the same text. -/
theorem Row.project_materialized {source : RowSource} {table : String} {columns : List Column}
    {row : Row} (read : Row.materialize source table columns = .ok row) :
    ∃ values, source.Decodes 0 columns values ∧
      (row.project columns).length = columns.length ∧
      (∀ (i : Nat) (column : Column), columns[i]? = some column → (row.project columns)[i]? =
        (values.map Value.render)[firstNamed columns column]?) ∧
      (row.project columns = values.map Value.render ↔
        AgreeByName columns (values.map Value.render)) := by
  obtain ⟨-, values, decodes, rfl⟩ := Row.materialize_ok_iff.mp read
  have wide := decodes.length
  refine ⟨values, decodes, List.length_map _, fun i column here => Row.project_zip wide here, ?_⟩
  constructor
  · intro positional i j a b atI atJ same
    -- both texts are those of the first position
    rw [← positional, Row.project_zip wide atI, Row.project_zip wide atJ, firstNamed_congr same]
  · intro agree
    refine List.ext_getElem? fun i => ?_
    cases here : columns[i]? with
    | some column =>
      have member := List.mem_of_getElem? here
      obtain ⟨first, at_first, named⟩ := Option.map_eq_some_iff.mp (name_firstNamed member)
      rw [Row.project_zip wide here, agree _ _ _ _ at_first here named]
    | none =>
      have outside : columns.length ≤ i := List.getElem?_eq_none_iff.mp here
      rw [List.getElem?_eq_none (by simpa [Row.project] using outside),
        List.getElem?_eq_none (by simpa [← wide] using outside)]

/-- A row that gives its slots whatever kind is asked for. -/
def RowSource.given (slots : List Slot) : RowSource := .ofCells (fun _ slot => .ok slot) slots

/-- Two columns of one name around another. -/
def surrounded : List Column := [⟨"a", "TEXT"⟩, ⟨"b", "BOOL"⟩, ⟨"a", "TEXT"⟩]

theorem Row.project_materialized_surrounded :
    ∃ row, Row.materialize (.given [.text (some "x"), .bool none, .text (some "y")]) "t"
        surrounded = .ok row ∧
      row.project surrounded = ["x", "false", "x"] := by
  obtain ⟨row, read⟩ : ∃ row, Row.materialize
      (.given [.text (some "x"), .bool none, .text (some "y")]) "t" surrounded = .ok row :=
    ⟨_, rfl⟩
  obtain ⟨values, decodes, -, fields, -⟩ := Row.project_materialized read
  obtain _ | ⟨⟨slot, decoded, rfl⟩, _ | ⟨⟨other, again, rfl⟩, _ | ⟨⟨last, third, rfl⟩, _ | _⟩⟩⟩ :=
    decodes
  cases decoded
  cases again
  cases third
  refine ⟨row, read, List.ext_getElem? fun i => ?_⟩
  match i with
  | 0 => exact fields 0 _ rfl
  | 1 => exact fields 1 _ rfl
  | 2 => exact fields 2 _ rfl
  | i + 3 => rfl

/-- The second of two columns of one name shows the value of the first. -/
theorem Row.project_repeats_first :
    ∃ row, Row.materialize (.given [.text (some "1"), .text (some "2")]) "t"
        [⟨"a", "TEXT"⟩, ⟨"a", "TEXT"⟩] = .ok row ∧
      row.project [⟨"a", "TEXT"⟩, ⟨"a", "TEXT"⟩] = ["1", "1"] :=
  ⟨_, rfl, rfl⟩

end TableExport
