import Mathlib
import TableExport.Proofs.Export.Projections
import TableExport.Storage.Scripted

/-!
# Reading artifacts back

Whatever a projection shows, a standard reader finds it again in the bytes that were
written: the header, and one record of the same width for each item.
-/
namespace TableExport

inductive Projection
  | table (name : TableName) (limit : Option UInt32)
  | tableNames (names : List TableName)
  | tableMetadata (names : List TableName)
  | disabledRules

namespace Projection

/-- The steps of a projection. For a table they give the number of its rows. -/
def steps (storage : Storage) : Projection → Writing (Option Nat)
  | .table name limit => do
    let count ← Project.table storage name limit
    pure (some count)
  | .tableNames names => do
    Project.tableNames names
    pure none
  | .tableMetadata names => do
    Project.tableMetadata storage names
    pure none
  | .disabledRules => do
    Project.disabledRules storage
    pure none

/-- What a projection shows when these answers are given: the header, a record for each
item, and the count that is given back. -/
inductive Shows : Projection → List Exchange → List String → List (List String) → Option Nat → Prop
  | table (name : TableName) (limit : Option UInt32) (columns : List Column) (rows : List Row) :
    Shows (.table name limit) (tableExchanges name limit columns rows)
      (columns.map Column.name) (rowRecords columns rows) (some rows.length)
  | tableNames (names : List TableName) :
    Shows (.tableNames names) [] tableNamesHeader (nameRecords names) none
  | tableMetadata (counts : List (TableName × Int)) :
    Shows (.tableMetadata (counts.map Prod.fst)) (countExchanges counts)
      metadataHeader (countRecords counts) none
  | disabledRules (rules : List DisabledRule) :
    Shows .disabledRules (ruleExchanges rules) disabledRulesHeader (ruleRecords rules) none

variable {storage : Storage} {projection : Projection} {exchanges : List Exchange}
  {header : List String} {records : List (List String)} {count : Option Nat}

theorem Shows.width (shows_ : projection.Shows exchanges header records count) :
    ∀ record ∈ records, record.length = header.length := by
  intro record member
  cases shows_ with
  | table name limit columns rows =>
    obtain ⟨row, -, rfl⟩ := List.mem_map.mp member
    simp [Row.project]
  | tableNames names =>
    obtain ⟨name, -, rfl⟩ := List.mem_map.mp member
    rfl
  | tableMetadata counts =>
    obtain ⟨entry, -, rfl⟩ := List.mem_map.mp member
    rfl
  | disabledRules rules =>
    obtain ⟨rule, -, rfl⟩ := List.mem_map.mp member
    rfl

theorem Shows.counted (shows_ : projection.Shows exchanges header records count) :
    ∀ n, count = some n → n = records.length := by
  intro n given
  cases shows_ with
  | table name limit columns rows =>
    cases given
    simp [rowRecords]
  | tableNames names => cases given
  | tableMetadata counts => cases given
  | disabledRules rules => cases given

/-- A projection that succeeds has written what it shows, and holds nothing back. -/
theorem steps_ok {o o' : Output} (ready : o.sink.Ready o.world.files)
    (h : projection.steps storage o = .ok count o') :
    ∃ exchanges header records, projection.Shows exchanges header records count ∧
      Effect storage o (Csv.document (header :: records)) exchanges o' ∧ o'.held = [] := by
  cases projection with
  | table name limit =>
    obtain ⟨n, _, ran, last⟩ := bind_ok h
    cases last
    obtain ⟨columns, rows, effect, empty, rfl⟩ := Project.table_ok ready ran
    exact ⟨_, _, _, .table name limit columns rows, effect, empty⟩
  | tableNames names =>
    obtain ⟨_, _, ran, last⟩ := bind_ok h
    cases last
    obtain ⟨effect, empty⟩ := Project.tableNames_ok storage ready ran
    exact ⟨_, _, _, .tableNames names, effect, empty⟩
  | tableMetadata names =>
    obtain ⟨_, _, ran, last⟩ := bind_ok h
    cases last
    obtain ⟨counts, rfl, effect, empty⟩ := Project.tableMetadata_ok ready ran
    exact ⟨_, _, _, .tableMetadata counts, effect, empty⟩
  | disabledRules =>
    obtain ⟨_, _, ran, last⟩ := bind_ok h
    cases last
    obtain ⟨rules, effect, empty⟩ := Project.disabledRules_ok ready ran
    exact ⟨_, _, _, .disabledRules rules, effect, empty⟩

/-! ## Main result -/

/-- What a successful projection adds to its sink is read back as exactly what it shows, if
there is a column at all. Every record is as wide as the header, the count is that of the
records, and each of them stands on a line of its own that is not blank. -/
theorem read_back {sink : Sink} {world : World} {o' : Output} (ready : sink.Ready world.files)
    (h : projection.steps storage ⟨[], sink, world⟩ = .ok count o') :
    ∃ exchanges header records written,
      projection.Shows exchanges header records count ∧
      storage.Gives world.calls exchanges ∧
      o'.sink.taken o'.world.files = sink.taken world.files ++ written ∧
      (header ≠ [] → Csv.readText written = some (header :: records)) ∧
      (∀ record ∈ records, record.length = header.length) ∧
      (∀ n, count = some n → n = records.length) ∧
      ∃ lines : List Bytes, written = (lines.map fun line => line ++ [Csv.lineFeed]).flatten ∧
        lines.length = records.length + 1 ∧
        ∀ line ∈ lines, line ≠ [] ∧ line.getLast? ≠ some Csv.lineFeed := by
  obtain ⟨exchanges, header, records, shown, effect, empty⟩ := steps_ok ready h
  refine ⟨exchanges, header, records, _, shown, effect.talks.gives, ?_, ?_, shown.width,
    shown.counted, Csv.document_lines (header :: records)⟩
  · simpa [Output.bytes, empty] using effect.bytes
  · intro described
    apply Csv.readText_document
    intro fields member
    -- a record without fields would be as wide as the header
    rcases List.mem_cons.mp member with rfl | later
    · exact described
    · rintro rfl
      exact described (List.eq_nil_of_length_eq_zero (shown.width [] later).symm)

/-- A table whose rows hold quotes, commas and line feeds, and lack columns. -/
def unruly : Script where
  tables := [⟨"t", [⟨"a", "TEXT"⟩, ⟨"b,", "TEXT"⟩],
    [.finished ⟨[("a", .text "x,\"y\"\r\n"), ("b", .text "")]⟩, .finished ⟨[("c", .text "z")]⟩],
    2, none, none, none⟩]
  listed := ["t"]

theorem read_back_unruly :
    ∃ count output, (table ⟨"t", by decide⟩ none).steps unruly.storage
        ⟨[], .endless, ⟨⟨[], []⟩, [], 0, [], []⟩⟩ = .ok count output ∧
      ∃ exchanges header records written,
        (table ⟨"t", by decide⟩ none).Shows exchanges header records count ∧
        output.sink.taken output.world.files = written ∧
        (header ≠ [] → Csv.readText written = some (header :: records)) := by
  have ran : succeeds (fun _ _ => true) ((table ⟨"t", by decide⟩ none).steps unruly.storage
      ⟨[], .endless, ⟨⟨[], []⟩, [], 0, [], []⟩⟩) = true := by
    cbv
  obtain ⟨count, output, h, -⟩ := ok_of_succeeds ran
  have ready : Sink.endless.Ready ⟨[], []⟩ := trivial
  obtain ⟨exchanges, header, records, written, shown, -, bytes, read, -⟩ := read_back ready h
  exact ⟨count, output, h, exchanges, header, records, written, shown, bytes, read⟩

end Projection

end TableExport
