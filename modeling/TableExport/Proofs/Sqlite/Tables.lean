import Mathlib
import TableExport.Proofs.Decimal.Digits
import TableExport.Proofs.Export.Projections
import TableExport.Proofs.Storage.Answers
import TableExport.Proofs.Table.Cells
import TableExport.Proofs.Text.Utf8
import TableExport.Sqlite.Catalog

/-!
# Tables of stored values

Whatever the columns of a table are declared as, all its values are asked for as text. So only
text that is not well-formed stops the export of a table: every other value is shown by the rule
of its storage class, and NULL as nothing.
-/
namespace TableExport

/-! ## Rows by column names -/

namespace Row

theorem get?_of_mem {row : Row} (distinct : (row.fields.map Prod.fst).Nodup)
    {field : String × Value} (member : field ∈ row.fields) : row.get? field.1 = some field.2 := by
  obtain ⟨fields⟩ := row
  simp only [get?]
  induction fields with
  | nil => cases member
  | cons first rest ih =>
    obtain ⟨new, distinctRest⟩ := List.nodup_cons.mp distinct
    obtain rfl | later := List.mem_cons.mp member
    · simp
    · have other : (first.1 == field.1) = false := by
        rw [beq_eq_false_iff_ne]
        intro same
        exact new (List.mem_map.mpr ⟨field, later, same.symm⟩)
      simp only [List.find?_cons, other]
      exact ih distinctRest later

/-- A row that has its columns in order is laid out as it is. -/
theorem project_eq {row : Row} {columns : List Column}
    (named : row.fields.map Prod.fst = columns.map Column.name)
    (distinct : (columns.map Column.name).Nodup) :
    row.project columns = row.fields.map fun field => field.2.render := by
  have layout : row.project columns = (columns.map Column.name).map fun name =>
      ((row.get? name).map Value.render).getD "" := by
    rw [project, List.map_map]
    rfl
  rw [layout, ← named, List.map_map]
  refine List.map_congr_left fun field member => ?_
  simp only [Function.comp_apply, get?_of_mem (named ▸ distinct) member, Option.map_some,
    Option.getD_some]

end Row

theorem ReadFrom.names {α : Type} {decode : ScanKind → α → Except (Fault Cause) Slot}
    {columns : List Column} {cells : List α} {row : Row} (read : ReadFrom decode columns cells row)
    (wide : cells.length = columns.length) :
    row.fields.map Prod.fst = columns.map Column.name := by
  have same : List.Forall₂ (· = ·) ((columns.zip cells).map fun placed => placed.1.name)
      (row.fields.map Prod.fst) := by
    rw [List.forall₂_map_left_iff, List.forall₂_map_right_iff]
    refine List.Forall₂.imp (fun placed field given => ?_) read
    obtain ⟨slot, -, rfl⟩ := given
    rfl
  have placed : (columns.zip cells).map (fun placed => placed.1.name) =
      ((columns.zip cells).map Prod.fst).map Column.name := by rw [List.map_map]; rfl
  rw [List.forall₂_eq_eq_eq] at same
  rw [← same, placed, List.map_fst_zip wide.ge]

namespace Sqlite

/-! ## Values -/

namespace Stored

/-- Text has to be well-formed. -/
def WellFormed : Stored → Prop
  | .text bytes => ∃ s, bytes = Bytes.ofText s
  | _ => True

/-- How a value is shown. -/
inductive Shows : Stored → String → Prop
  | null : Shows .null ""
  | integer (n : Int64) : Shows (.integer n) (toString n.toInt)
  | real (x : Decimal.Binary64) : Shows (.real x) x.render
  | text (s : String) : Shows (.text (Bytes.ofText s)) s
  | blob (bytes : Bytes) : Shows (.blob bytes) (Utf8.decodeLossy bytes)

/-- Reading a stored value, with its failure as one of a row. -/
def read (kind : ScanKind) (stored : Stored) : Except (Fault Cause) Slot :=
  match stored.decode kind with
  | .ok slot => .ok slot
  | .error cause => .error (.raised cause)

theorem rowSource_eq (values : List Stored) : rowSource values = RowSource.ofCells read values := by
  unfold rowSource RowSource.ofCells read
  congr
  funext index kind
  cases values[index]? <;> rfl

theorem read_wellFormed {stored : Stored} (formed : stored.WellFormed) :
    ∃ slot, stored.read .text = .ok slot ∧ stored.Shows slot.value.render := by
  cases stored with
  | null => exact ⟨_, rfl, .null⟩
  | integer n =>
    refine ⟨.text (some (Decimal.integer n.toInt)), rfl, ?_⟩
    rw [Decimal.integer_eq]
    exact .integer n
  | real x => exact ⟨.text (some x.render), rfl, .real x⟩
  | text bytes =>
    obtain ⟨s, rfl⟩ := formed
    refine ⟨.text (some s), ?_, .text s⟩
    simp only [read, decode, asText, Utf8.decode?_ofText, Except.map]
  | blob bytes => exact ⟨.text (some (Utf8.decodeLossy bytes)), rfl, .blob bytes⟩

theorem read_malformed {stored : Stored} (malformed : ¬stored.WellFormed) :
    stored.read .text = .error (.raised .unreadable) := by
  cases stored with
  | text bytes =>
    have none : Utf8.decode? bytes = none := Utf8.decode?_none_iff.mpr (not_exists.mp malformed)
    simp only [read, decode, asText, none, Except.map]
  | _ => exact absurd trivial malformed

end Stored

/-! ## Columns -/

/-- The type names that columns are reported with. -/
def typeNames : List String :=
  ["INTEGER", "BOOLEAN", "DATE", "TIME", "DATETIME", "TEXT", "BLOB", "REAL", "NULL"]

theorem typeName_mem (declared : String) : typeName declared ∈ typeNames := by
  have among {test : Bool} {one other : String} (first : one ∈ typeNames)
      (second : other ∈ typeNames) : (bif test then one else other) ∈ typeNames := by
    cases test
    · exact second
    · exact first
  unfold typeName
  repeat' apply among
  all_goals simp [typeNames]

theorem kind_text {reported : String} (member : reported ∈ typeNames) :
    ScanKind.ofTypeName reported = .text := by
  simp only [typeNames, List.mem_cons, List.not_mem_nil, or_false] at member
  obtain rfl | rfl | rfl | rfl | rfl | rfl | rfl | rfl | rfl := member <;> rfl

theorem Table.kind_described {table : Table} {column : Column}
    (member : column ∈ table.described) : column.kind = .text := by
  unfold Table.described at member
  obtain ⟨described, -, rfl⟩ := List.mem_map.mp member
  rw [Column.kind, kind_text (typeName_mem _)]

/-- What holds of every table of a database: it has columns, no two of one name, and a value in
each row for each of them. -/
structure Table.WellFormed (table : Table) : Prop where
  columns : table.columns ≠ []
  distinct : (table.columns.map Prod.fst).Nodup
  wide : ∀ row ∈ table.rows, row.length = table.columns.length

theorem Table.names_described (table : Table) :
    table.described.map Column.name = table.columns.map Prod.fst := by
  rw [described, List.map_map]
  rfl

/-! ## Rows -/

theorem Catalog.bounded_subset (bound : Option Nat) (rows : List (List Stored)) :
    bounded bound rows ⊆ rows := by
  cases bound with
  | none => exact List.Subset.refl rows
  | some n => exact List.take_subset n rows

theorem mem_placedCells {α : Type} {columns : List Column} {rows : List (List α)}
    (wide : ∀ row ∈ rows, row.length = columns.length) {passes : α → Prop} :
    (∀ placed ∈ placedCells columns rows, passes placed.2) ↔
      ∀ row ∈ rows, ∀ value ∈ row, passes value := by
  have values : ∀ row ∈ rows, row = (columns.zip row).map Prod.snd :=
    fun row member => (List.map_snd_zip (wide row member).le).symm
  constructor
  · intro all row member value held
    rw [values row member] at held
    obtain ⟨placed, zipped, rfl⟩ := List.mem_map.mp held
    exact all placed (List.mem_flatMap.mpr ⟨row, member, zipped⟩)
  · intro all placed member
    obtain ⟨row, listed, zipped⟩ := List.mem_flatMap.mp member
    exact all row listed placed.2 (List.of_mem_zip zipped).2

/-- A row that is read shows its values in their order. -/
theorem shows_of_readFrom {columns : List Column} {values : List Stored} {row : Row}
    (texts : ∀ column ∈ columns, column.kind = .text) (distinct : (columns.map Column.name).Nodup)
    (wide : values.length = columns.length)
    (formed : ∀ value ∈ values, value.WellFormed) (read : ReadFrom Stored.read columns values row) :
    List.Forall₂ Stored.Shows values (row.project columns) := by
  have same : values = (columns.zip values).map Prod.snd := (List.map_snd_zip wide.le).symm
  rw [Row.project_eq (read.names wide) distinct, same, List.forall₂_map_left_iff,
    List.forall₂_map_right_iff]
  obtain ⟨length, fields⟩ := List.forall₂_iff_zip.mp read
  refine List.forall₂_iff_zip.mpr ⟨length, fun {placed field} member => ?_⟩
  obtain ⟨slot, decoded, rfl⟩ := fields member
  obtain ⟨column, value⟩ := List.of_mem_zip (List.of_mem_zip member).1
  obtain ⟨shown, decoded', shows_⟩ := Stored.read_wellFormed (formed placed.2 value)
  rw [texts placed.1 column, decoded'] at decoded
  cases decoded
  exact shows_

theorem shows_of_rows {columns : List Column} {rows : List (List Stored)} {found : List Row}
    (texts : ∀ column ∈ columns, column.kind = .text) (distinct : (columns.map Column.name).Nodup)
    (wide : ∀ row ∈ rows, row.length = columns.length)
    (formed : ∀ row ∈ rows, ∀ value ∈ row, value.WellFormed)
    (read : List.Forall₂ (ReadFrom Stored.read columns) rows found) :
    List.Forall₂ (List.Forall₂ Stored.Shows) rows (rowRecords columns found) := by
  rw [rowRecords, List.forall₂_map_right_iff]
  obtain ⟨length, each⟩ := List.forall₂_iff_zip.mp read
  refine List.forall₂_iff_zip.mpr ⟨length, fun {values row} member => ?_⟩
  have listed := (List.of_mem_zip member).1
  exact shows_of_readFrom texts distinct (wide values listed) (formed values listed) (each member)

/-! ## Exports -/

namespace Catalog
variable {catalog : Catalog} {name : TableName} {table : Table} {history : List Call}

theorem reply_describe (found : catalog.find? name.text = some table) (formed : table.WellFormed)
    (opened : Call.close ∉ history) :
    (catalog.database.storage.reply history (.describe name)).outcome = .ok table.described := by
  have columns : catalog.database.columns name = some table.described := by
    show (catalog.find? name.text).map Table.described = _
    rw [found, Option.map_some]
  have some_ : table.described.isEmpty = false := by
    rw [List.isEmpty_eq_false_iff, Table.described, ne_eq, List.map_eq_nil_iff]
    exact formed.columns
  rw [Database.reply_open opened]
  simp only [Database.answer, columns, Database.described, some_, Bool.false_eq_true, if_false]

theorem rows_eq (found : catalog.find? name.text = some table) (columns : List Column)
    (bound : Option Nat) : catalog.database.rows name columns bound =
      ⟨(bounded bound table.rows).map (RowSource.ofCells Stored.read), true⟩ := by
  rw [← funext Stored.rowSource_eq]
  simp only [database, found]

end Catalog

/-- A table of a database that is read up to a bound. -/
structure Catalog.Reads (catalog : Catalog) (name : TableName) (limit : Option UInt32)
    (table : Table) (rows : List (List Stored)) : Prop where
  found : catalog.find? name.text = some table
  formed : table.WellFormed
  rows : bounded (Sql.bound limit) table.rows = rows

namespace Catalog.Reads
variable {catalog : Catalog} {name : TableName} {limit : Option UInt32} {table : Table}
  {rows : List (List Stored)} {history : List Call}

theorem wide (reads : catalog.Reads name limit table rows) :
    ∀ row ∈ rows, row.length = table.described.length := by
  intro row member
  rw [Table.described, List.length_map]
  exact reads.formed.wide row (bounded_subset _ _ (reads.rows ▸ member))

theorem kinds {placed : Column × Stored} (member : placed ∈ placedCells table.described rows) :
    placed.1.kind = .text := by
  obtain ⟨row, -, zipped⟩ := List.mem_flatMap.mp member
  exact Table.kind_described (List.of_mem_zip zipped).1

theorem decodes {placed : Column × Stored} (member : placed ∈ placedCells table.described rows)
    (formed : placed.2.WellFormed) : ∃ slot, placed.2.read placed.1.kind = .ok slot := by
  obtain ⟨slot, decoded, -⟩ := Stored.read_wellFormed formed
  exact ⟨slot, by rw [kinds member, decoded]⟩

theorem outcome (reads : catalog.Reads name limit table rows) (opened : Call.close ∉ history) :
    (catalog.database.storage.reply history (.readRows name table.described limit)).outcome =
      Database.collect name table.described ⟨rows.map (RowSource.ofCells Stored.read), true⟩
        (.readRows name table.described limit) := by
  rw [Database.reply_open opened, ← reads.rows, ← rows_eq reads.found table.described]
  rfl

theorem succeed (reads : catalog.Reads name limit table rows) (opened : Call.close ∉ history)
    (formed : ∀ row ∈ rows, ∀ value ∈ row, value.WellFormed) :
    ∃ read, (catalog.database.storage.reply history
        (.readRows name table.described limit)).outcome = .ok read ∧
      List.Forall₂ (List.Forall₂ Stored.Shows) rows (rowRecords table.described read) := by
  have distinct : (table.described.map Column.name).Nodup := by
    rw [table.names_described]
    exact reads.formed.distinct
  have all := (mem_placedCells reads.wide).mpr formed
  obtain ⟨read, mapped, shown⟩ := exists_rows name.text reads.wide fun placed member =>
    decodes member (all placed member)
  refine ⟨read, ?_, shows_of_rows (fun _ => Table.kind_described) distinct reads.wide formed shown⟩
  rw [reads.outcome opened, Database.collect_ok mapped, if_pos rfl]

/-- The first text that is not well-formed is reported with table and column. -/
theorem fail (reads : catalog.Reads name limit table rows) (opened : Call.close ∉ history)
    {front back : List (Column × Stored)} {column : Column} {value : Stored}
    (split : placedCells table.described rows = front ++ (column, value) :: back)
    (before : ∀ placed ∈ front, placed.2.WellFormed) (malformed : ¬value.WellFormed) :
    (catalog.database.storage.reply history (.readRows name table.described limit)).outcome =
      .error (.raised (.scan column.name name.text .unreadable)) := by
  have member : (column, value) ∈ placedCells table.described rows := by simp [split]
  have failed : value.read column.kind = .error (.raised .unreadable) := by
    rw [kinds member]
    exact Stored.read_malformed malformed
  have decoded : ∀ placed ∈ front, ∃ slot, placed.2.read placed.1.kind = .ok slot := by
    intro placed earlier
    have listed : placed ∈ placedCells table.described rows := by simp [split, earlier]
    exact decodes listed (before placed earlier)
  have mapped := rows_error name.text reads.wide split decoded failed
  rw [reads.outcome opened, Database.collect_error mapped]
  rfl

end Catalog.Reads

/-- A sink that never fails gets a table exactly if all text in the rows that are read is
well-formed. Then there is one record for each row behind the header, and each value is shown by
the rule of its class, whatever its column was declared as. Otherwise the error names the table
and the first column, row by row, that holds text that is not well-formed. -/
theorem Catalog.table_exported {catalog : Catalog} {name : TableName} {table : Table}
    {limit : Option UInt32} {rows : List (List Stored)}
    (reads : catalog.Reads name limit table rows) {sink : Sink} {world : World}
    (opened : Call.close ∉ world.calls) (ready : sink.Ready world.files) (willing : sink.Willing)
    {result : EStateM.Result (Fault ExportError) Output Nat}
    (ended : Project.table catalog.database.storage name limit ⟨[], sink, world⟩ = result) :
    ((∃ n after, result = .ok n after) ↔ ∀ row ∈ rows, ∀ value ∈ row, value.WellFormed) ∧
    (∀ n after, result = .ok n after → n = rows.length ∧ after.held = [] ∧
      ∃ records, List.Forall₂ (List.Forall₂ Stored.Shows) rows records ∧
        after.sink.taken after.world.files =
          sink.taken world.files ++ Csv.document (table.columns.map Prod.fst :: records)) ∧
    ∀ fault after, result = .error fault after → ∃ front column bytes back,
      placedCells table.described rows = front ++ (column, .text bytes) :: back ∧
      (∀ placed ∈ front, placed.2.WellFormed) ∧ (∀ s, bytes ≠ Bytes.ofText s) ∧
      fault = .raised (.scan column.name name.text .unreadable) := by
  have described := reply_describe reads.found reads.formed opened
  have still : Call.close ∉ world.calls ++ [.describe name] := by simp [opened]
  have answered {answer : Except (Fault ExportError) (List Row)} :=
    @Project.table_answered _ ⟨[], sink, world⟩ name limit _ ready willing described answer
  obtain all | ⟨front, ⟨column, value⟩, back, split, before, malformed⟩ :=
    forall_or_first (fun placed => placed.2.WellFormed) (placedCells table.described rows)
  · have formed := (mem_placedCells reads.wide).mp all
    obtain ⟨read, replied, shown⟩ := reads.succeed still formed
    obtain ⟨after, ran, empty, effect⟩ := answered replied
    rw [ended] at ran
    subst ran
    refine ⟨⟨fun _ => formed, fun _ => ⟨_, _, rfl⟩⟩, ?_, ?_⟩
    · rintro _ _ ⟨⟩
      have bytes := effect.bytes
      simp only [Output.bytes, empty, List.append_nil, table.names_described] at bytes
      refine ⟨?_, empty, _, shown, bytes⟩
      rw [shown.length_eq, rowRecords, List.length_map]
    · rintro _ _ ⟨⟩
  · obtain ⟨after, ran⟩ := answered (reads.fail still split before malformed)
    rw [ended] at ran
    subst ran
    refine ⟨⟨?_, fun formed => ?_⟩, ?_, ?_⟩
    · rintro ⟨_, _, ⟨⟩⟩
    · have all := (mem_placedCells reads.wide).mpr formed
      exact absurd (all (column, value) (by simp [split])) malformed
    · rintro _ _ ⟨⟩
    · rintro _ _ ⟨⟩
      cases value with
      | text bytes =>
        exact ⟨front, column, bytes, back, split, before, not_exists.mp malformed, rfl⟩
      | _ => exact absurd trivial malformed

section Mixed

/-- Values of all classes in columns that are declared as something else, and text that is not
well-formed in the second row. -/
def mixed : Table where
  name := "Mixed"
  columns := [("a", "BOOLEAN"), ("b,", "int4 PRIMARY KEY"), ("c", "")]
  rows := [[.blob [0xFF], .text [0x78], .null], [.real .zero, .integer 2, .text [0xC3]]]

def mixedCatalog : Catalog where
  tables := [mixed]

theorem mixed_wellFormed : mixed.WellFormed where
  columns := by simp [mixed]
  distinct := by decide
  wide := by simp [mixed]

theorem Catalog.table_exported_mixed :
    (∃ n after, Project.table mixedCatalog.database.storage ⟨"mixed", by decide⟩ (some 1)
      ⟨[], .endless, ⟨⟨[], []⟩, [], 0, [], []⟩⟩ = .ok n after) ∧
    ∀ n after, Project.table mixedCatalog.database.storage ⟨"mixed", by decide⟩ none
      ⟨[], .endless, ⟨⟨[], []⟩, [], 0, [], []⟩⟩ ≠ .ok n after := by
  have found : mixedCatalog.find? "mixed" = some mixed := by cbv
  have ready : Sink.endless.Ready ⟨[], []⟩ := trivial
  have willing : Sink.endless.Willing := ⟨rfl, rfl⟩
  have opened : Call.close ∉ [] := List.not_mem_nil
  constructor
  · have reads : mixedCatalog.Reads ⟨"mixed", by decide⟩ (some 1) mixed
        [[.blob [0xFF], .text [0x78], .null]] := ⟨found, mixed_wellFormed, rfl⟩
    refine (Catalog.table_exported reads opened ready willing rfl).1.mpr ?_
    have letter : ∃ s, [0x78] = Bytes.ofText s := ⟨"x", by decide +kernel⟩
    simp [letter, Stored.WellFormed]
  · have reads : mixedCatalog.Reads ⟨"mixed", by decide⟩ none mixed mixed.rows :=
      ⟨found, mixed_wellFormed, rfl⟩
    intro n after ran
    have formed := (Catalog.table_exported reads opened ready willing rfl).1.mp ⟨n, after, ran⟩
    have text : Stored.WellFormed (.text [0xC3]) :=
      formed _ (List.mem_cons_of_mem _ List.mem_cons_self) _ (by simp)
    obtain ⟨s, same⟩ := text
    have read := Utf8.decode?_ofText s
    rw [← same] at read
    cases (show Utf8.decode? [0xC3] = none by decide +kernel).symm.trans read

end Mixed

end Sqlite

end TableExport
