import Mathlib
import TableExport.Proofs.Postgres.Reading
import TableExport.Proofs.Storage.Answers
import TableExport.Proofs.Table.Cells

/-!
# Every value that a server may send

The timestamps and dates of a server reach further than the calendar and end in two infinities,
and a server with another encoding sends bytes that are no text. A read is decided by the first
cell, row by row and column by column, that holds such a value. If there is none, all rows are
read. Bytes that are no text end the read with an error that names table and column; a timestamp
or a date outside the calendar ends the process.
-/
namespace TableExport.Postgres

/-- The types of timestamps. -/
def stampTypes : List String := ["TIMESTAMP", "TIMESTAMPTZ"]

/-- The types whose values are sent as plain text. -/
def plainTypes : List String := ["TEXT", "VARCHAR", "CHAR", "NAME"]

/-- The cells that a server may send for a column: NULL, a value of the column's type in the form
of that type, and text for a column that was to be cast. Timestamps may have any 64 bits, dates
any 32 bits, and texts any bytes. -/
inductive Sent (column : Column) : Cell → Prop
  | null (typeName : String) : Sent column ⟨typeName, none⟩
  | datum (d : Datum) (has : column.typeName ∈ d.typeNames) :
      Sent column ⟨column.typeName, some d.bytes⟩
  | timestamp (n : Int64) (stamp : column.typeName ∈ stampTypes) :
      Sent column ⟨column.typeName, some (twosComplement 8 n.toInt)⟩
  | date (n : Int32) (dated : column.typeName = "DATE") :
      Sent column ⟨column.typeName, some (twosComplement 4 n.toInt)⟩
  | text (bytes : Bytes) (plain : column.typeName ∈ plainTypes) :
      Sent column ⟨column.typeName, some bytes⟩
  | cast (bytes : Bytes) (asked : needsCast column = true) : Sent column ⟨"TEXT", some bytes⟩

namespace Cell

/-- A timestamp or a date that no day of the calendar has. -/
inductive Outside : Cell → Prop
  | timestamp {typeName : String} (n : Int64) (stamp : typeName ∈ stampTypes)
    (none : ∀ m : Calendar.Moment, m.micros ≠ n.toInt) :
    Outside ⟨typeName, some (twosComplement 8 n.toInt)⟩
  | date (n : Int32)
    (none : ∀ d : Calendar.Date, d.Valid → d.number ≠ Calendar.millennium + n.toInt) :
    Outside ⟨"DATE", some (twosComplement 4 n.toInt)⟩

/-- Bytes that are sent as text and are the bytes of no text. -/
inductive Garbled : Cell → Prop
  | mk {typeName : String} {bytes : Bytes} (plain : typeName ∈ plainTypes)
    (none : ∀ s, bytes ≠ Bytes.ofText s) : Garbled ⟨typeName, some bytes⟩

def Readable (cell : Cell) : Prop := ¬cell.Outside ∧ ¬cell.Garbled

end Cell

/-! ## Cells -/

theorem kind_stamp : ∀ typeName ∈ stampTypes, ScanKind.ofTypeName typeName = .text := by decide

theorem kind_plain : ∀ typeName ∈ plainTypes, ScanKind.ofTypeName typeName = .text := by decide

/-- A value of a type that is read as text is asked for as text, also after a cast. -/
theorem Sent.kind_text {column : Column} {typeName : String} {bytes : Bytes}
    (sent : Sent column ⟨typeName, some bytes⟩) (texts : ScanKind.ofTypeName typeName = .text) :
    column.kind = .text := by
  cases sent with
  | cast bytes asked => exact kind_text_of_not_mem ((needsCast_iff column).mp asked)
  | _ => exact texts

theorem text_stamp {typeName : String} (stamp : typeName ∈ stampTypes) (bytes : Bytes) :
    text typeName bytes = timestamp bytes := by
  simp only [stampTypes, List.mem_cons, List.not_mem_nil, or_false] at stamp
  obtain rfl | rfl := stamp <;> rfl

theorem text_plain {typeName : String} (plain : typeName ∈ plainTypes) (bytes : Bytes) :
    text typeName bytes = plainText bytes := by
  simp only [plainTypes, List.mem_cons, List.not_mem_nil, or_false] at plain
  obtain rfl | rfl | rfl | rfl := plain <;> rfl

theorem decode_text {typeName : String} {bytes : Bytes} {fault : Fault Cause}
    (failed : text typeName bytes = .error fault) :
    Cell.decode .text ⟨typeName, some bytes⟩ = .error fault := by
  show (text typeName bytes).map _ = _
  rw [failed, Except.map]

theorem Cell.Outside.text {typeName : String} {bytes : Bytes}
    (outside : Cell.Outside ⟨typeName, some bytes⟩) :
    Postgres.text typeName bytes = .error .crash := by
  cases outside with
  | timestamp n stamp none =>
    have micros : integer 64 (twosComplement 8 n.toInt) = .ok n.toInt := integer_int8 n
    rw [text_stamp stamp]
    simp only [Postgres.timestamp, micros, bind, Except.bind,
      Calendar.Moment.ofMicros?_none_iff.mpr none, orCrash]
  | date n none =>
    have days : integer 32 (twosComplement 4 n.toInt) = .ok n.toInt := integer_int4 n
    show Postgres.date _ = _
    simp only [Postgres.date, days, bind, Except.bind, Calendar.Date.ofDay?_none_iff.mpr none,
      orCrash]

theorem Cell.Garbled.text {typeName : String} {bytes : Bytes}
    (garbled : Cell.Garbled ⟨typeName, some bytes⟩) :
    Postgres.text typeName bytes = .error (.raised .unreadable) := by
  cases garbled with
  | mk plain none =>
    rw [text_plain plain, plainText, Utf8.decode?_none_iff.mpr none]
    rfl

theorem Sent.decode_outside {column : Column} {cell : Cell} (sent : Sent column cell)
    (outside : cell.Outside) : cell.decode column.kind = .error .crash := by
  have texts : column.kind = .text := by
    cases outside with
    | timestamp n stamp => exact sent.kind_text (kind_stamp _ stamp)
    | date n => exact sent.kind_text rfl
  obtain ⟨typeName, _ | bytes⟩ := cell
  · cases outside
  · rw [texts, decode_text outside.text]

theorem Sent.decode_garbled {column : Column} {cell : Cell} (sent : Sent column cell)
    (garbled : cell.Garbled) : cell.decode column.kind = .error (.raised .unreadable) := by
  have texts : column.kind = .text := by
    cases garbled with
    | mk plain => exact sent.kind_text (kind_plain _ plain)
  obtain ⟨typeName, _ | bytes⟩ := cell
  · cases garbled
  · rw [texts, decode_text garbled.text]

theorem exists_datum_text {typeName : String} (plain : typeName ∈ plainTypes) {bytes : Bytes}
    (readable : Cell.Readable ⟨typeName, some bytes⟩) : ∃ s, bytes = Bytes.ofText s := by
  by_contra none
  exact readable.2 (.mk plain (not_exists.mp none))

/-- A readable cell is the answer to the item that asks for its column. -/
theorem Sent.answers {column : Column} {cell : Cell} (sent : Sent column cell)
    (readable : cell.Readable) : ∃ answer : Answer, answer.cell = cell ∧
      answer.To column.typeName (SelectItem.ofColumn column) := by
  have plainly : ∀ d : Datum, column.typeName ∈ d.typeNames → ∃ answer : Answer,
      answer.cell = ⟨column.typeName, some d.bytes⟩ ∧
        answer.To column.typeName (SelectItem.ofColumn column) := by
    intro d has
    have plain : needsCast column = false := by
      by_contra asked
      exact (needsCast_iff column).mp (by simpa using asked) (typeNames_subset d has)
    have typed : d.HasType column.typeName := by
      cases d with
      | other => cases has
      | _ => exact has
    refine ⟨⟨some d, _⟩, rfl, ?_⟩
    rw [SelectItem.ofColumn, plain]
    exact .plain _ d typed
  cases sent with
  | null typeName => exact ⟨⟨none, _⟩, rfl, .null _ _⟩
  | datum d has => exact plainly d has
  | timestamp n stamp =>
    obtain ⟨m, same⟩ : ∃ m : Calendar.Moment, m.micros = n.toInt := by
      by_contra none
      exact readable.1 (.timestamp n stamp (not_exists.mp none))
    rw [← same]
    exact plainly (.moment m) stamp
  | date n dated =>
    obtain ⟨d, valid, same⟩ : ∃ d : Calendar.Date, d.Valid ∧
        d.number = Calendar.millennium + n.toInt := by
      by_contra none
      rw [dated] at readable
      exact readable.1 (.date n fun d valid same => none ⟨d, valid, same⟩)
    have days : n.toInt = d.number - Calendar.millennium := by omega
    rw [days]
    exact plainly (.date d valid) (List.mem_singleton.mpr dated)
  | text bytes plain =>
    obtain ⟨s, rfl⟩ := exists_datum_text plain readable
    exact plainly (.text s) plain
  | cast bytes asked =>
    obtain ⟨s, rfl⟩ := exists_datum_text (by decide) readable
    have other : Datum.HasType column.typeName (.other [] s) := by
      intro d has
      exact (needsCast_iff column).mp asked (typeNames_subset d has)
    refine ⟨⟨some (.other [] s), _⟩, rfl, ?_⟩
    rw [SelectItem.ofColumn, asked]
    exact .cast _ _ s other rfl

theorem Sent.decode_readable {column : Column} {cell : Cell} (sent : Sent column cell)
    (readable : cell.Readable) : ∃ slot, cell.decode column.kind = .ok slot := by
  obtain ⟨answer, rfl, answers⟩ := sent.answers readable
  obtain ⟨field, fills⟩ := answers.fills
  obtain ⟨slot, decoded, -⟩ := fills.slot
  exact ⟨slot, decoded⟩

/-! ## Rows -/

theorem exists_answered {columns : List Column} {cells : List Cell}
    (sent : List.Forall₂ Sent columns cells)
    (readable : ∀ placed ∈ columns.zip cells, placed.2.Readable) : ∃ answers : List Answer,
      answers.map Answer.cell = cells ∧
        Answered columns (columns.map SelectItem.ofColumn) answers := by
  induction sent with
  | nil => exact ⟨[], rfl, .nil⟩
  | cons head _ ih =>
    obtain ⟨here, later⟩ := List.forall_mem_cons.mp readable
    obtain ⟨answer, rfl, answers⟩ := head.answers here
    obtain ⟨rest, rfl, answered⟩ := ih later
    exact ⟨answer :: rest, rfl, .cons answers answered⟩

theorem exists_all_answered {columns : List Column} {rows : List (List Cell)}
    (sent : ∀ row ∈ rows, List.Forall₂ Sent columns row)
    (readable : ∀ placed ∈ placedCells columns rows, placed.2.Readable) :
    ∃ answers : List (List Answer), answers.map (fun row => row.map Answer.cell) = rows ∧
      ∀ row ∈ answers, Answered columns (columns.map SelectItem.ofColumn) row := by
  induction rows with
  | nil => exact ⟨[], rfl, nofun⟩
  | cons row rest ih =>
    obtain ⟨sentHere, sentLater⟩ := List.forall_mem_cons.mp sent
    obtain ⟨here, later⟩ := List.forall_mem_append.mp readable
    obtain ⟨answers, rfl, answered⟩ := exists_answered sentHere here
    obtain ⟨more, rfl, all⟩ := ih sentLater later
    exact ⟨answers :: more, rfl, List.forall_mem_cons.mpr ⟨answered, all⟩⟩

theorem sent_of_placed {columns : List Column} {rows : List (List Cell)}
    (sent : ∀ row ∈ rows, List.Forall₂ Sent columns row) :
    ∀ placed ∈ placedCells columns rows, Sent placed.1 placed.2 := by
  intro placed member
  obtain ⟨row, listed, zipped⟩ := List.mem_flatMap.mp member
  exact List.forall₂_iff_zip.mp (sent row listed) |>.2 zipped

/-- A read is decided by the first cell that is not readable. If there is none, all rows are read,
with the values that the server sent, and a server that does not come to the end of its rows
makes it a query error. Bytes that are no text are reported with table and column. Only a
timestamp or a date outside the calendar ends the process. -/
theorem Server.readRows_decided (server : Server) (history : List Call)
    (opened : Call.close ∉ history) (table : TableName) (columns : List Column)
    (limit : Option UInt32) {rows : List (List Cell)} {complete : Bool}
    (answer : server.rows table columns (Sql.bound limit) = (rows, complete))
    (sent : ∀ row ∈ rows, List.Forall₂ Sent columns row)
    {outcome : Except (Fault ExportError) (List Row)}
    (ended : (server.database.storage.reply history (.readRows table columns limit)).outcome =
      outcome) :
    ((∀ placed ∈ placedCells columns rows, placed.2.Readable) ∧
      ∃ (answers : List (List Answer)) (read : List Row),
        answers.map (fun row => row.map Answer.cell) = rows ∧
        List.Forall₂ (Shown table columns) answers read ∧
        outcome = if complete then .ok read
          else .error (.raised (.query (Call.readRows table columns limit).context .refused))) ∨
    ∃ front column cell back, placedCells columns rows = front ++ (column, cell) :: back ∧
      (∀ placed ∈ front, placed.2.Readable) ∧
      (cell.Garbled ∧ outcome = .error (.raised (.scan column.name table.text .unreadable)) ∨
        cell.Outside ∧ outcome = .error .crash) := by
  have placed_sent := sent_of_placed sent
  have sources : (server.database.rows table columns (Sql.bound limit)).rows =
      rows.map rowSource := congrArg (fun found => found.1.map rowSource) answer
  have ending : (server.database.rows table columns (Sql.bound limit)).complete = complete :=
    congrArg Prod.snd answer
  rw [Database.reply_open opened] at ended
  subst ended
  obtain all | ⟨front, ⟨column, cell⟩, back, split, before, unreadable⟩ :=
    forall_or_first (fun placed => placed.2.Readable) (placedCells columns rows)
  · obtain ⟨answers, rfl, answered⟩ := exists_all_answered sent all
    obtain ⟨read, shown⟩ := @exists_shown table columns answers answered
    have mapped := mapM_materialize shown
    rw [← Function.comp_def rowSource, ← List.map_map, ← sources] at mapped
    refine .inl ⟨all, answers, read, rfl, shown, ?_⟩
    rw [← ending]
    exact Database.collect_ok mapped
  · -- everything in front is decoded, so that the first fault is that of this cell
    have failing {fault : Fault Cause} (failed : cell.decode column.kind = .error fault) :
        (server.database.answer (.readRows table columns limit)).outcome =
          .error (fault.map (.scan column.name table.text)) := by
      refine Database.collect_error ?_
      rw [sources, funext rowSource_eq]
      have wide : ∀ row ∈ rows, row.length = columns.length :=
        fun row member => (sent row member).length_eq.symm
      refine rows_error table.text wide split ?_ failed
      intro placed member
      exact (placed_sent placed (by simp [split, member])).decode_readable (before placed member)
    have here : Sent column cell := placed_sent (column, cell) (by simp [split])
    refine .inr ⟨front, column, cell, back, split, before, ?_⟩
    by_cases garbled : cell.Garbled
    · exact .inl ⟨garbled, failing (here.decode_garbled garbled)⟩
    · have outside : cell.Outside := by
        by_contra inside
        exact unreadable ⟨inside, garbled⟩
      exact .inr ⟨outside, failing (here.decode_outside outside)⟩

section Infinity

def seenColumns : List Column := [⟨"id", "INT4"⟩, ⟨"seen", "TIMESTAMP"⟩]

/-- A row whose timestamp is infinity, behind a row with the start of 2000. -/
def seenRows : List (List Cell) :=
  [[⟨"INT4", some [0, 0, 0, 7]⟩, ⟨"TIMESTAMP", some [0, 0, 0, 0, 0, 0, 0, 0]⟩],
    [⟨"INT4", none⟩, ⟨"TIMESTAMP", some (twosComplement 8 Int64.maxValue.toInt)⟩]]

def seenServer : Server := { Server.silent with rows := fun _ _ _ => (seenRows, true) }

theorem seenRows_sent : ∀ row ∈ seenRows, List.Forall₂ Sent seenColumns row := by
  simp only [seenRows, seenColumns, List.mem_cons, List.not_mem_nil, or_false, forall_eq_or_imp,
    forall_eq]
  constructor
  · exact .cons (.datum (.int4 7) (.head _)) (.cons (.timestamp 0 (.head _)) .nil)
  · exact .cons (.null _) (.cons (.timestamp Int64.maxValue (.head _)) .nil)

/-- A legal value ends the process, without an error for its column. -/
theorem Server.readRows_infinity :
    (∀ row ∈ (seenServer.rows people seenColumns none).1, List.Forall₂ Sent seenColumns row) ∧
      (seenServer.database.storage.reply [] (.readRows people seenColumns none)).outcome =
        .error .crash :=
  ⟨seenRows_sent, rfl⟩

theorem Server.readRows_decided_infinity :
    ∃ front column cell back, placedCells seenColumns seenRows = front ++ (column, cell) :: back ∧
      (∀ placed ∈ front, placed.2.Readable) ∧ cell.Outside := by
  obtain ⟨-, answers, read, -, -, all⟩ | ⟨front, column, cell, back, split, before, ending⟩ :=
    Server.readRows_decided seenServer [] List.not_mem_nil people seenColumns none rfl
      seenRows_sent rfl
  · cases all
  · obtain ⟨-, scanned⟩ | ⟨outside, -⟩ := ending
    · cases scanned
    · exact ⟨front, column, cell, back, split, before, outside⟩

end Infinity

end TableExport.Postgres
