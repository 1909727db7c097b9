import Mathlib
import TableExport.Proofs.Postgres.Selection
import TableExport.Proofs.Postgres.Values
import TableExport.Proofs.Table.Cells

/-!
# Reading rows

A server is asked for columns in a select list and answers one cell for each item: text where the
list asks for a cast, and elsewhere a value of the column's own type. The select list, the kinds
of the columns and the reading of cells agree for all types: every row that is answered so is
read, with a slot of the column's kind for each cell, the zero value of the kind for NULL and the
text of the value otherwise.
-/
namespace TableExport

namespace Postgres

/-! ## Answers -/

/-- A stored value, `none` for NULL, and the cell that is sent for it. -/
structure Answer where
  value : Option Datum
  cell : Cell

/-- How a server may print a value. The text that counts is that of the types without a reading
of their own; nothing is known of the others. -/
def Datum.PrintedAs (text : String) : Datum → Prop
  | .other _ printed => text = printed
  | _ => True

/-- An answer to an item of a select list, for a column of some type. -/
inductive Answer.To (typeName : String) : SelectItem → Answer → Prop
  | null (item : SelectItem) (sent : String) : To typeName item ⟨none, ⟨sent, none⟩⟩
  | cast (name : String) (d : Datum) (text : String) (has : d.HasType typeName)
      (printed : d.PrintedAs text) :
      To typeName ⟨name, true⟩ ⟨some d, ⟨"TEXT", some (Bytes.ofText text)⟩⟩
  | plain (name : String) (d : Datum) (has : d.HasType typeName) :
      To typeName ⟨name, false⟩ ⟨some d, ⟨typeName, some d.bytes⟩⟩

/-- A row of answers, one to each item, for columns of their types. -/
inductive Answered : List Column → List SelectItem → List Answer → Prop
  | nil : Answered [] [] []
  | cons {column : Column} {item : SelectItem} {answer : Answer} {columns : List Column}
      {items : List SelectItem} {answers : List Answer} (head : answer.To column.typeName item)
      (rest : Answered columns items answers) :
      Answered (column :: columns) (item :: items) (answer :: answers)

/-- The field of a row that a column gets from an answer: its cell is decoded into a slot of the
column's kind, NULL becomes the zero value of the kind and a value its text. -/
structure Answer.Fills (answer : Answer) (column : Column) (field : String × Value) : Prop where
  slot : ∃ slot : Slot, answer.cell.decode column.kind = .ok slot ∧ slot.kind = column.kind ∧
    field = (column.name, slot.value)
  null : answer.value = none → field.2 = Value.zero column.kind
  text : ∀ d, answer.value = some d → field.2.render = d.shown

/-- The fields that columns get from a row of answers. -/
inductive Filled : List Column → List Answer → List (String × Value) → Prop
  | nil : Filled [] [] []
  | cons {column : Column} {answer : Answer} {field : String × Value} {columns : List Column}
      {answers : List Answer} {fields : List (String × Value)} (head : answer.Fills column field)
      (rest : Filled columns answers fields) :
      Filled (column :: columns) (answer :: answers) (field :: fields)

/-! ## Types -/

theorem typeNames_subset (d : Datum) : d.typeNames ⊆ readTypes := by
  cases d <;> simp [Datum.typeNames, readTypes]

/-- The first day of 2000. -/
def firstDay : Calendar.Date := ⟨2000, 1, 1⟩

theorem firstDay_valid : firstDay.Valid := ⟨by decide, by decide, by decide⟩

/-- One value of every form but the last. -/
def samples : List Datum :=
  [.bool false, .int2 0, .int4 0, .int8 0, .float4 ⟨0⟩, .float8 ⟨0⟩, .uuid ⟨0, 0, 0, 0, 0⟩,
    .moment ⟨firstDay, firstDay_valid, Calendar.Clock.midnight⟩, .date firstDay firstDay_valid,
    .endOfDay, .bytea [], .text ""]

theorem exists_typeNames : ∀ typeName ∈ readTypes, ∃ d ∈ samples, typeName ∈ d.typeNames := by
  decide

theorem kind_text_of_not_mem {column : Column} (absent : column.typeName ∉ readTypes) :
    column.kind = .text := by
  have bool : column.typeName ≠ "BOOL" := fun same => absent (same ▸ by decide)
  have int4 : column.typeName ≠ "INT4" := fun same => absent (same ▸ by decide)
  rw [Column.kind, ScanKind.ofTypeName, if_neg bool, if_neg int4]

/-- Columns are cast whose types have no reading of their own. -/
theorem needsCast_iff (column : Column) :
    needsCast column = true ↔ column.typeName ∉ readTypes := by
  simp only [needsCast, Bool.and_eq_true, decide_eq_true_eq, Bool.not_eq_true',
    List.contains_eq_mem, decide_eq_false_iff_not, and_iff_right_iff_imp]
  exact kind_text_of_not_mem

theorem other_of_needsCast {column : Column} (cast : needsCast column = true) {d : Datum}
    (has : d.HasType column.typeName) : ∃ binary printed, d = .other binary printed := by
  have absent := (needsCast_iff column).mp cast
  cases d with
  | other binary printed => exact ⟨binary, printed, rfl⟩
  | _ => exact absurd (typeNames_subset _ has) absent

theorem typeNames_of_not_needsCast {column : Column} (plain : needsCast column = false) {d : Datum}
    (has : d.HasType column.typeName) : column.typeName ∈ d.typeNames := by
  have present : column.typeName ∈ readTypes := by
    by_contra absent
    exact Bool.false_ne_true (plain.symm.trans ((needsCast_iff column).mpr absent))
  cases d with
  | other binary printed =>
    obtain ⟨sample, -, named⟩ := exists_typeNames _ present
    exact absurd named (has sample)
  | _ => exact has

/-! ## Cells -/

/-- A value in its own type is decoded as the kind of that type. -/
theorem present_bytes {d : Datum} {typeName : String} (has : typeName ∈ d.typeNames) :
    ∃ slot, present (.ofTypeName typeName) typeName d.bytes = .ok slot ∧
      slot.kind = .ofTypeName typeName ∧ slot.value.render = d.shown := by
  unfold ScanKind.ofTypeName
  split
  next bool =>
    subst bool
    cases d <;> simp [Datum.typeNames] at has
    next b => exact ⟨.bool (some b), by simp [present, boolean_bytes, Except.map], rfl, rfl⟩
  next =>
    split
    next int4 =>
      subst int4
      cases d <;> simp [Datum.typeNames] at has
      next n =>
        have low := n.le_toInt
        have high := n.toInt_lt
        have wide : (Int64.ofInt n.toInt).toInt = n.toInt :=
          Int64.toInt_ofInt_of_le (by omega) (by omega)
        refine ⟨.int64 (some (Int64.ofInt n.toInt)), ?_, rfl, ?_⟩
        · simp [present, integer_int4, Except.map]
        · show Decimal.integer (Int64.ofInt n.toInt).toInt = toString n.toInt
          rw [wide, Decimal.integer_eq]
    next =>
      exact ⟨.text (some d.shown), by rw [present, text_bytes has, Except.map], rfl, rfl⟩

/-- Every answer to the item that asks for a column is read. -/
theorem Answer.To.fills {column : Column} {answer : Answer}
    (sent : answer.To column.typeName (SelectItem.ofColumn column)) :
    ∃ field, answer.Fills column field := by
  unfold SelectItem.ofColumn at sent
  generalize asked : needsCast column = cast at sent
  cases sent with
  | null =>
    refine ⟨(column.name, (Slot.null column.kind).value), ⟨_, rfl, Slot.kind_null _, rfl⟩,
      fun _ => Slot.value_null _, ?_⟩
    rintro _ ⟨⟩
  | cast name d text has printed =>
    obtain ⟨binary, shown, rfl⟩ := other_of_needsCast asked has
    obtain rfl : text = shown := printed
    have kind : column.kind = .text := kind_text_of_not_mem ((needsCast_iff column).mp asked)
    have decoded : Cell.decode .text ⟨"TEXT", some (Bytes.ofText text)⟩ =
        .ok (.text (some text)) := by
      have read : Postgres.text "TEXT" (Bytes.ofText text) = .ok text := plainText_bytes text
      show (Postgres.text "TEXT" (Bytes.ofText text)).map (fun s => Slot.text (some s)) = _
      rw [read, Except.map]
    refine ⟨(column.name, .text text), ⟨.text (some text), ?_, kind.symm, rfl⟩, nofun, ?_⟩
    · rw [kind, decoded]
    · rintro _ ⟨⟩
      rfl
  | plain name d has =>
    obtain ⟨slot, decoded, kind, shown⟩ := present_bytes (typeNames_of_not_needsCast asked has)
    refine ⟨(column.name, slot.value), ⟨slot, decoded, kind, rfl⟩, nofun, ?_⟩
    rintro _ ⟨⟩
    exact shown

/-! ## Rows -/

theorem Answered.fills {columns : List Column} {answers : List Answer}
    (answered : Answered columns (columns.map SelectItem.ofColumn) answers) :
    ∃ fields, Filled columns answers fields := by
  induction columns generalizing answers with
  | nil =>
    cases answered
    exact ⟨[], .nil⟩
  | cons column columns ih =>
    cases answered with
    | cons head rest =>
      obtain ⟨field, read⟩ := head.fills
      obtain ⟨fields, reads⟩ := ih rest
      exact ⟨field :: fields, .cons read reads⟩

theorem Filled.length {columns : List Column} {answers : List Answer}
    {fields : List (String × Value)} (read : Filled columns answers fields) :
    answers.length = columns.length := by
  induction read with
  | nil => rfl
  | cons _ _ ih => simp [ih]

theorem rowSource_eq (cells : List Cell) :
    rowSource cells = RowSource.ofCells (fun kind cell => cell.decode kind) cells := by
  unfold rowSource RowSource.ofCells
  congr
  funext index kind
  cases cells[index]? <;> rfl

theorem Filled.placed {columns : List Column} {answers : List Answer}
    {fields : List (String × Value)} (read : Filled columns answers fields) (table : String) :
    List.Forall₂ (fun placed field =>
        Column.field (fun kind (cell : Cell) => cell.decode kind) table placed = .ok field)
      (columns.zip (answers.map Answer.cell)) fields := by
  induction read with
  | nil => exact .nil
  | cons head _ ih =>
    obtain ⟨slot, decoded, -, named⟩ := head.slot
    exact .cons (Column.field_ok_iff.mpr ⟨slot, decoded, named⟩) ih

theorem Filled.materialize {columns : List Column} {answers : List Answer}
    {fields : List (String × Value)} (read : Filled columns answers fields) (table : String) :
    Row.materialize (rowSource (answers.map Answer.cell)) table columns = .ok ⟨fields⟩ := by
  have wide : (answers.map Answer.cell).length = columns.length := by
    rw [List.length_map, read.length]
  rw [rowSource_eq, materialize_ofCells table wide, mapM_ok_iff.mpr (read.placed table), Except.map]

/-! ## Reads -/

/-- A row that is read with every field filled by its answer. -/
def Shown (table : TableName) (columns : List Column) (answers : List Answer) (row : Row) :
    Prop :=
  Row.materialize (rowSource (answers.map Answer.cell)) table.text columns = .ok row ∧
    Filled columns answers row.fields

theorem exists_shown {table : TableName} {columns : List Column} {answers : List (List Answer)}
    (answered : ∀ row ∈ answers, Answered columns (columns.map SelectItem.ofColumn) row) :
    ∃ rows, List.Forall₂ (Shown table columns) answers rows := by
  induction answers with
  | nil => exact ⟨[], .nil⟩
  | cons answer answers ih =>
    obtain ⟨fields, filled⟩ := (answered answer List.mem_cons_self).fills
    obtain ⟨rows, shown⟩ := ih fun row member => answered row (List.mem_cons_of_mem _ member)
    exact ⟨⟨fields⟩ :: rows, .cons ⟨filled.materialize table.text, filled⟩ shown⟩

theorem mapM_materialize {table : TableName} {columns : List Column} {answers : List (List Answer)}
    {rows : List Row} (shown : List.Forall₂ (Shown table columns) answers rows) :
    (answers.map fun row => rowSource (row.map Answer.cell)).mapM
      (fun source => Row.materialize source table.text columns) = .ok rows := by
  rw [mapM_ok_iff, List.forall₂_map_left_iff]
  exact shown.imp fun _ _ read => read.1

/-- The statement of a full read selects an item for each column, by its name, and can be read in
no other way. If a server answers each row item by item, then every row is read, and its fields
are filled as the columns and the values demand. The read succeeds if the server comes to the end
of its rows, and is a query error otherwise. -/
theorem Server.readRows_fills (server : Server) (history : List Call)
    (opened : Call.close ∉ history) (table : TableName) (columns : List Column)
    (limit : Option UInt32) :
    ∃ items : List SelectItem,
      (∀ read, server.database.statement? (.readRows table columns limit) =
        some (Sql.select (SelectItem.list read) table limit) ↔ read = items) ∧
      items.map SelectItem.name = columns.map Column.name ∧
      ∀ answers : List (List Answer),
        (server.rows table columns (Sql.bound limit)).1 =
          answers.map (fun row => row.map Answer.cell) →
        (∀ row ∈ answers, Answered columns items row) →
        ∃ rows : List Row,
          (server.database.storage.reply history (.readRows table columns limit)).outcome =
            (if (server.rows table columns (Sql.bound limit)).2 then .ok rows
             else .error (.raised (.query (Call.readRows table columns limit).context .refused))) ∧
          List.Forall₂ (Shown table columns) answers rows := by
  refine ⟨columns.map SelectItem.ofColumn, statement_iff server table columns limit,
    by simp [SelectItem.ofColumn], ?_⟩
  intro answers cells answered
  obtain ⟨rows, shown⟩ : ∃ rows, List.Forall₂ (Shown table columns) answers rows :=
    exists_shown answered
  have open_still : Database.isClosed history (.readRows table columns limit) = false := by
    simp [Database.isClosed, opened]
  have sources : (server.database.rows table columns (Sql.bound limit)).rows =
      answers.map fun row => rowSource (row.map Answer.cell) := by
    show (server.rows table columns (Sql.bound limit)).1.map rowSource = _
    rw [cells, List.map_map]
    rfl
  refine ⟨rows, ?_, shown⟩
  show (Database.reply server.database history _).outcome = _
  simp only [Database.reply, open_still, Bool.false_eq_true, if_false, Database.answer,
    Database.collect, sources, mapM_materialize shown]
  rfl

section Moods

/-- A table with a column of a type of its own and a name with quotes. -/
def moodColumns : List Column := [⟨"id", "INT4"⟩, ⟨"odd \"mood\"", "mood"⟩, ⟨"seen", "DATE"⟩]

/-- One row of it with values, and one without. -/
def moodAnswers : List (List Answer) :=
  [[⟨some (.int4 7), ⟨"INT4", some [0, 0, 0, 7]⟩⟩,
      ⟨some (.other [1] "happy"), ⟨"TEXT", some (Bytes.ofText "happy")⟩⟩,
      ⟨some (.date firstDay firstDay_valid), ⟨"DATE", some [0, 0, 0, 0]⟩⟩],
    [⟨none, ⟨"INT4", none⟩⟩, ⟨none, ⟨"TEXT", none⟩⟩, ⟨none, ⟨"DATE", none⟩⟩]]

def moodServer : Server :=
  { Server.silent with rows := fun _ _ _ => (moodAnswers.map fun row => row.map Answer.cell, true) }

def people : TableName := ⟨"people", by decide⟩

theorem Server.readRows_fills_moods : ∃ rows : List Row,
    (moodServer.database.storage.reply [] (.readRows people moodColumns none)).outcome = .ok rows ∧
      List.Forall₂ (Shown people moodColumns) moodAnswers rows := by
  obtain ⟨items, read, -, fills⟩ :=
    Server.readRows_fills moodServer [] List.not_mem_nil people moodColumns none
  obtain rfl : [⟨"id", false⟩, ⟨"odd \"mood\"", true⟩, ⟨"seen", false⟩] = items := (read _).mp rfl
  have mood : (Datum.other [1] "happy").HasType "mood" :=
    fun d named => absurd (typeNames_subset d named) (by decide)
  refine fills moodAnswers rfl ?_
  simp only [moodAnswers, List.mem_cons, List.not_mem_nil, or_false, forall_eq_or_imp, forall_eq]
  constructor
  · exact .cons (.plain _ (.int4 7) (.head _)) (.cons (.cast _ _ "happy" mood rfl)
      (.cons (.plain _ (.date firstDay firstDay_valid) (.head _)) .nil))
  · exact .cons (.null _ _) (.cons (.null _ _) (.cons (.null _ _) .nil))

end Moods

end Postgres

end TableExport
