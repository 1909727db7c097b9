import Mathlib
import TableExport.Proofs.Table.Positions
import TableExport.Table.Requests

/-!
# The course of a read

A read of a row asks for the columns in their order, each by its position and its kind, until one
cannot be decoded. What it gives is told by the answers to these requests: a row with the name of
each column and the value of its slot, or the failure of the last column that was asked for. A row
of another width is asked for nothing.
-/
namespace TableExport

/-- The value that a slot holds, if it is not NULL. -/
inductive Slot.Holds : Slot → Value → Prop
  | text (s : String) : Holds (.text (some s)) (.text s)
  | bool (b : Bool) : Holds (.bool (some b)) (.bool b)
  | int64 (n : Int64) : Holds (.int64 (some n)) (.int64 n)
  | float64 (x : Decimal.Binary64) : Holds (.float64 (some x)) (.float64 x)
  | int32 (n : Int32) : Holds (.int32 (some n)) (.int32 n)

theorem Slot.value_cases (slot : Slot) :
    slot.Holds slot.value ∨ slot = .null slot.kind ∧ slot.value = Value.zero slot.kind := by
  obtain (_ | s) | (_ | b) | (_ | n) | (_ | x) | (_ | n) := slot
  · exact .inr ⟨rfl, rfl⟩
  · exact .inl (.text s)
  · exact .inr ⟨rfl, rfl⟩
  · exact .inl (.bool b)
  · exact .inr ⟨rfl, rfl⟩
  · exact .inl (.int64 n)
  · exact .inr ⟨rfl, rfl⟩
  · exact .inl (.float64 x)
  · exact .inr ⟨rfl, rfl⟩
  · exact .inl (.int32 n)

/-- The requests for columns in their order, the first of which is at a position. -/
def Request.ofColumns (index : Nat) (columns : List Column) : List Request :=
  (columns.zipIdx index).map fun (column, position) => ⟨position, column.kind⟩

/-- How a read goes: what it gives, and what it asks for. -/
inductive Row.Course (source : RowSource) (table : String) (columns : List Column) :
    Except (Fault ExportError) Row → List Request → Prop
  -- A row of another width is refused, and nothing is asked for.
  | misshapen (other : source.width ≠ columns.length) :
      Course source table columns
        (.error (.raised ⟨.scan, s!"Unexpected row shape in table '{table}'",
          some (.rowShape source.width columns.length)⟩)) []
  -- All columns can be decoded.
  | complete (wide : source.width = columns.length) (values : List Value)
      (decodes : source.Decodes 0 columns values) :
      Course source table columns (.ok ⟨(columns.map Column.name).zip values⟩)
        (Request.ofColumns 0 columns)
  -- A column cannot be decoded, but all before it can. What is behind it is not asked for.
  | broken (wide : source.width = columns.length) (front : List Column) (column : Column)
      (back : List Column) (split : columns = front ++ column :: back) (values : List Value)
      (decodes : source.Decodes 0 front values) (fault : Fault Cause)
      (failed : source.decode front.length column.kind = .error fault) :
      Course source table columns
        (.error (fault.map fun cause =>
          ⟨.scan, s!"Failed to decode column '{column.name}' of table '{table}'", some cause⟩))
        (Request.ofColumns 0 (front ++ [column]))

/-! ## Columns one by one -/

section Fields
variable {source : RowSource} {table : String} {column : Column} {columns : List Column}
  {index : Nat}

theorem Request.ofColumns_cons (index : Nat) (column : Column) (columns : List Column) :
    ofColumns index (column :: columns) =
      ⟨index, column.kind⟩ :: ofColumns (index + 1) columns := rfl

theorem RowSource.recording_run (source : RowSource) (index : Nat) (kind : ScanKind)
    (record : List Request) : (source.recording index kind).run record =
      (source.decode index kind, record ++ [⟨index, kind⟩]) := rfl

theorem Row.fieldsM_failed {fault : Fault Cause}
    (failed : source.decode index column.kind = .error fault) (record : List Request) :
    (fieldsM source.recording table index (column :: columns)).run record =
      (.error (fault.map (.scan column.name table)), record ++ [⟨index, column.kind⟩]) := by
  rw [fieldsM, StateT.run_bind, RowSource.recording_run, failed]
  rfl

theorem Row.fieldsM_decoded {slot : Slot} (decoded : source.decode index column.kind = .ok slot)
    (record : List Request) :
    (fieldsM source.recording table index (column :: columns)).run record =
      ((fieldsM source.recording table (index + 1) columns).run
        (record ++ [⟨index, column.kind⟩])).map
        (fun later => later.map ((column.name, slot.value) :: ·)) id := by
  rw [fieldsM, StateT.run_bind, RowSource.recording_run, decoded]
  show (StateT.run (_ >>= _) (record ++ [⟨index, column.kind⟩])) = _
  rw [StateT.run_bind]
  cases ((fieldsM source.recording table (index + 1) columns).run
        (record ++ [⟨index, column.kind⟩])) with
  | mk later asked => cases later <;> rfl

theorem Row.fieldsM_complete {values : List Value} (decodes : source.Decodes index columns values)
    (record : List Request) :
    (fieldsM source.recording table index columns).run record =
      (.ok ((columns.map Column.name).zip values), record ++ Request.ofColumns index columns) := by
  induction columns generalizing index values record with
  | nil =>
    rw [show Request.ofColumns index [] = [] from rfl, List.append_nil]
    rfl
  | cons column rest ih =>
    obtain _ | ⟨⟨slot, decoded, rfl⟩, later⟩ := decodes
    rw [fieldsM_decoded decoded, ih later, Request.ofColumns_cons, List.append_assoc]
    rfl

theorem Row.fieldsM_broken {front back : List Column} {values : List Value} {fault : Fault Cause}
    (decodes : source.Decodes index front values)
    (failed : source.decode (index + front.length) column.kind = .error fault)
    (record : List Request) :
    (fieldsM source.recording table index (front ++ column :: back)).run record =
      (.error (fault.map (.scan column.name table)),
        record ++ Request.ofColumns index (front ++ [column])) := by
  induction front generalizing index values record with
  | nil => exact fieldsM_failed failed record
  | cons first rest ih =>
    obtain _ | ⟨⟨slot, decoded, rfl⟩, later⟩ := decodes
    -- the same column, by its distance from the next position
    have behind : source.decode (index + 1 + rest.length) column.kind = .error fault := by
      rw [← failed, List.length_cons]
      congr 1
      omega
    rw [List.cons_append, fieldsM_decoded decoded, ih later behind, List.cons_append,
      Request.ofColumns_cons, List.append_assoc]
    rfl

/-- Either all columns can be decoded, or there is a first that cannot. -/
theorem RowSource.decodes_or_broken (source : RowSource) (index : Nat) (columns : List Column) :
    (∃ values, source.Decodes index columns values) ∨
      ∃ front column back values fault, columns = front ++ column :: back ∧
        source.Decodes index front values ∧
        source.decode (index + front.length) column.kind = .error fault := by
  induction columns generalizing index with
  | nil => exact .inl ⟨[], .nil⟩
  | cons column rest ih =>
    cases here : source.decode index column.kind with
    | error fault => exact .inr ⟨[], column, rest, [], fault, rfl, .nil, here⟩
    | ok slot =>
      obtain ⟨values, later⟩ | ⟨front, broken, back, values, fault, rfl, later, failed⟩ :=
        ih (index + 1)
      · exact .inl ⟨_, .cons ⟨slot, here, rfl⟩ later⟩
      · refine .inr ⟨column :: front, broken, back, _, fault, rfl,
          .cons ⟨slot, here, rfl⟩ later, ?_⟩
        rw [← failed, List.length_cons]
        congr 1
        omega

/-- Without a record the same steps are the read itself. -/
theorem Row.fieldsM_id (source : RowSource) (table : String) (index : Nat)
    (columns : List Column) :
    Id.run (fieldsM source.decode table index columns) = source.fields table index columns := by
  induction columns generalizing index with
  | nil => rfl
  | cons column rest ih =>
    rw [RowSource.fields, ← ih, fieldsM, Id.run_bind]
    cases source.decode index column.kind with
    | error fault => rfl
    | ok slot =>
      show Id.run (_ >>= _) = _
      rw [Id.run_bind]
      cases Id.run (fieldsM source.decode table (index + 1) rest) <;> rfl

/-- A record changes nothing of what is read. -/
theorem Row.fieldsM_recording (source : RowSource) (table : String) (index : Nat)
    (columns : List Column) (record : List Request) :
    ((fieldsM source.recording table index columns).run record).1 =
      source.fields table index columns := by
  induction columns generalizing index record with
  | nil => rfl
  | cons column rest ih =>
    rw [RowSource.fields]
    cases here : source.decode index column.kind with
    | error fault => rw [fieldsM_failed here]
    | ok slot =>
      rw [fieldsM_decoded here, Prod.map_fst, ih]
      cases source.fields table (index + 1) rest <;> rfl

end Fields

/-! ## Rows -/

namespace Row
variable {source : RowSource} {table : String} {columns : List Column}

theorem materializeRecorded_wide (wide : source.width = columns.length) :
    materializeRecorded source table columns =
      ((fieldsM source.recording table 0 columns).run []).map (·.map mk) id := by
  rw [materializeRecorded, materializeM, if_neg (not_not.mpr wide)]
  rfl

theorem materializeRecorded_misshapen (other : source.width ≠ columns.length) :
    materializeRecorded source table columns =
      (.error (.raised (.rowShape table source.width columns.length)), []) := by
  rw [materializeRecorded, materializeM, if_pos other]
  rfl

theorem materializeRecorded_fst (source : RowSource) (table : String) (columns : List Column) :
    (materializeRecorded source table columns).1 = materialize source table columns := by
  by_cases wide : source.width = columns.length
  · rw [materializeRecorded_wide wide, Prod.map_fst, fieldsM_recording, materialize,
      if_neg (not_not.mpr wide)]
  · rw [materializeRecorded_misshapen wide, materialize, if_pos wide]

theorem materializeM_id (source : RowSource) (table : String) (columns : List Column) :
    Id.run (materializeM source.width source.decode table columns) =
      materialize source table columns := by
  unfold materializeM materialize
  split
  · rfl
  · rw [← fieldsM_id]
    rfl

theorem Course.recorded {result : Except (Fault ExportError) Row} {asked : List Request}
    (course : Course source table columns result asked) :
    materializeRecorded source table columns = (result, asked) := by
  cases course with
  | misshapen other => exact materializeRecorded_misshapen other
  | complete wide values decodes =>
    rw [materializeRecorded_wide wide, fieldsM_complete decodes]
    rfl
  | broken wide front column back split values decodes fault failed =>
    have here : source.decode (0 + front.length) column.kind = .error fault := by
      rwa [Nat.zero_add]
    rw [materializeRecorded_wide wide, split, fieldsM_broken decodes here]
    rfl

theorem exists_course (source : RowSource) (table : String) (columns : List Column) :
    ∃ result asked, Course source table columns result asked := by
  by_cases wide : source.width = columns.length
  · obtain ⟨values, decodes⟩ | ⟨front, column, back, values, fault, split, decodes, failed⟩ :=
      source.decodes_or_broken 0 columns
    · exact ⟨_, _, .complete wide values decodes⟩
    · rw [Nat.zero_add] at failed
      exact ⟨_, _, .broken wide front column back split values decodes fault failed⟩
  · exact ⟨_, _, .misshapen wide⟩

/-! ## Main result -/

/-- Reading a row with a record of its requests gives what reading it gives, and takes the course
that the answers to the requests determine. A slot gives the value that it holds, and NULL the
zero value of its kind. -/
theorem materialize_course (source : RowSource) (table : String) (columns : List Column) :
    Id.run (materializeM source.width source.decode table columns) =
      materialize source table columns ∧
    (materializeRecorded source table columns).1 = materialize source table columns ∧
    (∀ result asked, materializeRecorded source table columns = (result, asked) ↔
      Course source table columns result asked) ∧
    ∀ slot : Slot,
      slot.Holds slot.value ∨ slot = .null slot.kind ∧ slot.value = Value.zero slot.kind := by
  refine ⟨materializeM_id source table columns, materializeRecorded_fst source table columns,
    fun result asked => ⟨fun ran => ?_, Course.recorded⟩, Slot.value_cases⟩
  obtain ⟨found, requests, course⟩ := exists_course source table columns
  obtain ⟨rfl, rfl⟩ := Prod.mk.inj (course.recorded.symm.trans ran)
  exact course

-- The second of three columns cannot be decoded, and the third is not asked for.
example : materializeRecorded ⟨3, fun index _ =>
      if index = 1 then .error (.raised .unreadable) else .ok (.bool none)⟩ "t"
      [⟨"a", "BOOL"⟩, ⟨"b", "TEXT"⟩, ⟨"c", "INT4"⟩] =
    (.error (.raised (.scan "b" "t" .unreadable)), [⟨0, .bool⟩, ⟨1, .text⟩]) := rfl

end Row

end TableExport
