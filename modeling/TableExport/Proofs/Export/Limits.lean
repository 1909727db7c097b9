import Mathlib
import TableExport.Postgres.Database
import TableExport.Proofs.Sqlite.Counts

/-!
# Exports under a limit

A limit cuts off a read behind its first rows, and everything that is written depends on the rows
alone. So the bytes of a limited export are the front of those of a longer one. A row that cannot be
read does no harm behind the limit, which is why the limited export may succeed where the longer one
fails.

Zero is no limit. The call that is recorded is another one, but nothing that is written or reported
depends on which calls are on record once the rows are read.
-/
namespace TableExport

/-! ## Outputs that differ in the calls on record -/

/-- Two outputs that are the same, but for the calls that were made. -/
def Output.Alike (o o' : Output) : Prop :=
  ∃ calls, o' = { o with world := { o.world with calls := calls } }

namespace Writing
variable {α β : Type}

/-- Two results that are the same, but for the calls that were made. -/
inductive EndAlike : EStateM.Result (Fault ExportError) Output α →
    EStateM.Result (Fault ExportError) Output α → Prop
  | ok {a : α} {o o' : Output} (alike : o.Alike o') : EndAlike (.ok a o) (.ok a o')
  | error {fault : Fault ExportError} {o o' : Output} (alike : o.Alike o') :
    EndAlike (.error fault o) (.error fault o')

/-- Steps that do not look at the calls that were made. -/
def Blind (steps : Writing α) : Prop := ∀ ⦃o o'⦄, o.Alike o' → EndAlike (steps o) (steps o')

theorem EndAlike.bind {first first' : Writing α} {next next' : α → Writing β} {o o' : Output}
    (alike : EndAlike (first o) (first' o'))
    (onward : ∀ a ⦃o o'⦄, o.Alike o' → EndAlike (next a o) (next' a o')) :
    EndAlike ((first >>= next) o) ((first' >>= next') o') := by
  simp only [Bind.bind, EStateM.bind]
  generalize first o = result, first' o' = result' at alike
  cases alike with
  | ok alike => exact onward _ alike
  | error alike => exact .error alike

/-- What two pairs of steps begin with may look at the calls if both begin with it. -/
theorem EndAlike.after {first : Writing α} {next next' : α → Writing β}
    (onward : ∀ a o, EndAlike (next a o) (next' a o)) (o : Output) :
    EndAlike ((first >>= next) o) ((first >>= next') o) := by
  simp only [Bind.bind, EStateM.bind]
  cases first o with
  | ok a between => exact onward a between
  | error fault between => exact .error ⟨between.world.calls, rfl⟩

theorem blind_pure (a : α) : Blind (pure a) := fun _ _ alike => .ok alike

theorem blind_throw (fault : Fault ExportError) : Blind (throw fault : Writing α) :=
  fun _ _ alike => .error alike

theorem Blind.bind {first : Writing α} {next : α → Writing β} (blind : Blind first)
    (onward : ∀ a, Blind (next a)) : Blind (first >>= next) :=
  fun _ _ alike => (blind alike).bind onward

theorem blind_hold (bytes : Bytes) : Blind (hold bytes) := by
  rintro o _ ⟨calls, rfl⟩
  exact .ok ⟨calls, rfl⟩

theorem blind_push : Blind push := by
  rintro o _ ⟨calls, rfl⟩
  exact .ok ⟨calls, rfl⟩

theorem blind_flushSink : Blind flushSink := by
  rintro o _ ⟨calls, rfl⟩
  exact .ok ⟨calls, rfl⟩

theorem blind_report (event : Log.Event) : Blind (run (Run.report event)) := by
  rintro o _ ⟨calls, rfl⟩
  exact .ok ⟨calls, rfl⟩

theorem blind_handOver (artifact : String) (chunks : List Bytes) :
    Blind (handOver artifact chunks) := by
  induction chunks with
  | nil => exact blind_pure ()
  | cons chunk rest ih =>
    refine (blind_hold chunk).bind fun _ => blind_push.bind fun taken => ?_
    cases taken with
    | true => exact ih
    | false => exact blind_throw _

theorem blind_record (artifact : String) (fields : List String) : Blind (record artifact fields) := by
  rintro o _ ⟨calls, rfl⟩
  exact ((blind_handOver artifact _).bind fun _ => blind_hold _) ⟨calls, rfl⟩

theorem blind_records (artifact : String) (rows : List (List String)) :
    Blind (records artifact rows) := by
  induction rows with
  | nil => exact blind_pure ()
  | cons fields rest ih => exact (blind_record artifact fields).bind fun _ => ih

theorem blind_finish (artifact : String) : Blind (finish artifact) := by
  refine blind_push.bind fun taken => ?_
  cases taken with
  | true =>
    refine blind_flushSink.bind fun flushed => ?_
    cases flushed with
    | true => exact blind_pure ()
    | false => exact blind_throw _
  | false => exact blind_throw _

theorem blind_abandon : Blind abandon := by
  refine blind_push.bind fun taken => ?_
  cases taken with
  | true => exact blind_flushSink.bind fun _ => blind_hold []
  | false => exact blind_hold []

theorem EndAlike.guarded {steps steps' : Writing α} {o o' : Output}
    (alike : EndAlike (steps o) (steps' o')) : EndAlike (guarded steps o) (guarded steps' o') := by
  simp only [Writing.guarded]
  generalize steps o = result, steps' o' = result' at alike
  cases alike with
  | ok alike => exact .ok alike
  | @error fault left left' alike =>
    cases fault with
    | crash => exact .error alike
    | raised error =>
      have cleaned := blind_abandon alike
      simp only
      generalize abandon left = result, abandon left' = result' at cleaned
      cases cleaned with
      | ok alike => exact .error alike
      | error alike => exact .error alike

end Writing

/-! ## Zero is no limit -/

theorem Database.reply_unlimited (db : Database) (history : List Call) (name : TableName)
    (columns : List Column) : (db.reply history (.readRows name columns none)).events =
        (db.reply history (.readRows name columns (some 0))).events ∧
      (db.reply history (.readRows name columns none)).outcome =
        (db.reply history (.readRows name columns (some 0))).outcome := by
  cases closed : history.contains Call.close <;>
    simp only [reply, isClosed, closed] <;> exact ⟨rfl, rfl⟩

namespace Project
open Writing

theorem ask_unlimited (db : Database) (name : TableName) (columns : List Column) (o : Output) :
    EndAlike (run (Run.ask db.storage (.readRows name columns none)) o)
      (run (Run.ask db.storage (.readRows name columns (some 0))) o) := by
  obtain ⟨events, outcome⟩ := db.reply_unlimited o.world.calls name columns
  simp only [run, Run.ask, Database.storage, ← events, ← outcome]
  cases (db.reply o.world.calls (.readRows name columns none)).outcome with
  | ok rows => exact .ok ⟨_, rfl⟩
  | error fault => exact .error ⟨_, rfl⟩

/-- Zero as a limit and no limit lead to the same output, whatever the sink takes. -/
theorem table_unlimited (db : Database) (name : TableName) (o : Output) :
    EndAlike (table db.storage name none o) (table db.storage name (some 0) o) := by
  -- up to the rows both ask and write the same; what follows them looks at no call
  refine EndAlike.after (fun columns o => EndAlike.guarded (EndAlike.after (fun _ o => ?_) o)) o
  exact (ask_unlimited db name columns o).bind fun rows => (blind_records _ _).bind fun _ =>
    (blind_finish _).bind fun _ => (blind_report _).bind fun _ => blind_pure _

end Project

/-! ## The front of a read -/

theorem Sql.bound_some {n : UInt32} (limited : n ≠ 0) : bound (some n) = some n.toNat := if_neg limited

/-- A bound leaves at least one row. -/
theorem Sql.pos_of_bound {limit : Option UInt32} {m : Nat} (bounded : bound limit = some m) :
    0 < m := by
  cases limit with
  | none => cases bounded
  | some n =>
    by_cases zero : n = 0
    · simp [bound, zero] at bounded
    · rw [bound_some zero] at bounded
      cases bounded
      exact UInt32.pos_iff_ne_zero.mpr zero

namespace Cursor
variable {name : TableName} {columns : List Column} {cursor : Cursor} {read : List Row} {n m : Nat}

/-- The first rows of a read. Where they are all there, it does not matter how the read goes on. -/
def first (n : Nat) (cursor : Cursor) : Cursor :=
  ⟨cursor.rows.take n, cursor.complete || n ≤ cursor.rows.length⟩

/-- A read comes to its end, and every row of it can be decoded. -/
structure Reads (name : TableName) (columns : List Column) (cursor : Cursor) (read : List Row) :
    Prop where
  complete : cursor.complete = true
  decoded : List.Forall₂ (fun source row => Row.materialize source name.text columns = .ok row)
    cursor.rows read

theorem first_first (fewer : n ≤ m) (cursor : Cursor) : (cursor.first m).first n = cursor.first n := by
  have rows : (cursor.rows.take m).take n = cursor.rows.take n := by
    rw [List.take_take, min_eq_left fewer]
  have enough : (n ≤ m ∧ n ≤ cursor.rows.length) ↔ n ≤ cursor.rows.length := and_iff_right fewer
  have longer : m ≤ cursor.rows.length → n ≤ cursor.rows.length := fewer.trans
  simp only [first, rows, List.length_take, le_min_iff, enough]
  cases cursor.complete with
  | true => rfl
  | false => simpa using longer

theorem Reads.first (reads : cursor.Reads name columns read) (n : Nat) :
    (cursor.first n).Reads name columns (read.take n) where
  complete := by simp [Cursor.first, reads.complete]
  decoded := List.forall₂_take n reads.decoded

theorem Reads.length_first (reads : (cursor.first n).Reads name columns read) :
    read.length = min n cursor.rows.length := by
  rw [← reads.decoded.length_eq, Cursor.first, List.length_take]

theorem collect_ok_iff {call : Call} :
    Database.collect name columns cursor call = .ok read ↔ cursor.Reads name columns read := by
  unfold Database.collect
  split
  next fault failed =>
    refine ⟨nofun, fun reads => ?_⟩
    cases failed.symm.trans (mapM_ok_iff.mpr reads.decoded)
  next rows decoded =>
    split
    next complete =>
      constructor
      · rintro ⟨⟩
        exact ⟨complete, mapM_ok_iff.mp decoded⟩
      · intro reads
        exact decoded.symm.trans (mapM_ok_iff.mpr reads.decoded)
    next broken => exact ⟨nofun, fun reads => absurd reads.complete broken⟩

end Cursor

/-- A limited read of a table is answered with the first rows of the full read: always by a SQLite
database, and by a server that answers a limit so. -/
inductive Database.AnswersFirst : Database → TableName → Prop
  | sqlite (catalog : Sqlite.Catalog) (name : TableName) : AnswersFirst catalog.database name
  | postgres (server : Postgres.Server) (name : TableName)
    (front : ∀ columns n, 0 < n → server.rows name columns (some n) =
      ((server.rows name columns none).1.take n,
        (server.rows name columns none).2 || n ≤ (server.rows name columns none).1.length)) :
    AnswersFirst server.database name

namespace Database.AnswersFirst
variable {db : Database} {name : TableName} {n : Nat}

theorem rows_some (answers : db.AnswersFirst name) (columns : List Column) (positive : 0 < n) :
    db.rows name columns (some n) = (db.rows name columns none).first n := by
  cases answers with
  | sqlite catalog name =>
    simp only [Sqlite.Catalog.database]
    split
    next => simp [Cursor.first, Sqlite.Catalog.bounded]
    next => simp [Cursor.first, positive.ne']
  | postgres server name front => simp [Postgres.Server.database, Cursor.first, front, positive]

/-- The first rows are the same under any limit that is not smaller. -/
theorem first_rows (answers : db.AnswersFirst name) (columns : List Column)
    {larger : Option UInt32} (enough : ∀ m ∈ Sql.bound larger, n ≤ m) :
    (db.rows name columns (Sql.bound larger)).first n = (db.rows name columns none).first n := by
  cases bounded : Sql.bound larger with
  | none => rfl
  | some m =>
    rw [answers.rows_some columns (Sql.pos_of_bound bounded),
      Cursor.first_first (enough m (Option.mem_def.mpr bounded))]

end Database.AnswersFirst

/-! ## Exports -/

theorem Csv.document_prefix {front records : List (List String)} (here : front <+: records) :
    document front <+: document records := by
  obtain ⟨back, rfl⟩ := here
  simp [document, encode]

namespace Project
variable {db : Database} {name : TableName} {limit : Option UInt32} {sink : Sink} {world : World}
  {count : Nat} {bytes : Bytes}

/-- How the export of a table ends, and what its sink has then. -/
def exported (storage : Storage) (name : TableName) (limit : Option UInt32) (sink : Sink)
    (world : World) : Except (Fault ExportError) Nat × Bytes :=
  match table storage name limit ⟨[], sink, world⟩ with
  | .ok count after => (.ok count, after.sink.taken after.world.files)
  | .error fault after => (.error fault, after.sink.taken after.world.files)

theorem exported_unlimited (db : Database) (name : TableName) (sink : Sink) (world : World) :
    exported db.storage name none sink world = exported db.storage name (some 0) sink world := by
  have alike := table_unlimited db name ⟨[], sink, world⟩
  unfold exported
  generalize table db.storage name none ⟨[], sink, world⟩ = result,
    table db.storage name (some 0) ⟨[], sink, world⟩ = result' at alike
  cases alike with
  | ok alike =>
    obtain ⟨calls, rfl⟩ := alike
    rfl
  | error alike =>
    obtain ⟨calls, rfl⟩ := alike
    rfl

theorem read_open {columns : List Column}
    (described : (db.storage.reply world.calls (.describe name)).outcome = .ok columns) :
    (db.storage.reply (world.calls ++ [.describe name]) (.readRows name columns limit)).outcome =
      Database.collect name columns (db.rows name columns (Sql.bound limit))
        (.readRows name columns limit) := by
  -- the table was described, so the storage is still open
  have opened := @Database.opened_of_ok db _ (.describe name) _ (by simp) described
  rw [Database.reply_open (by simp [opened])]
  rfl

/-- An export succeeds if the table can be described and the rows can be read, and only then. -/
theorem exported_ok_iff (ready : sink.Ready world.files) (willing : sink.Willing) :
    exported db.storage name limit sink world = (.ok count, bytes) ↔
      ∃ columns rows, (db.storage.reply world.calls (.describe name)).outcome = .ok columns ∧
        (db.rows name columns (Sql.bound limit)).Reads name columns rows ∧ count = rows.length ∧
        bytes = sink.taken world.files ++
          Csv.document (columns.map Column.name :: rowRecords columns rows) := by
  constructor
  · intro ended
    unfold exported at ended
    split at ended
    next n after ran =>
      obtain ⟨columns, rows, effect, empty, rfl⟩ := table_ok ready ran
      obtain ⟨described, read, -⟩ := effect.talks.gives
      obtain ⟨rfl, rfl⟩ := ended
      refine ⟨columns, rows, described, ?_, rfl, ?_⟩
      · exact Cursor.collect_ok_iff.mp ((read_open described).symm.trans read)
      · simpa [Output.bytes, empty] using effect.bytes
    next => cases ended
  · rintro ⟨columns, rows, described, reads, rfl, rfl⟩
    have read := (read_open described).trans (Cursor.collect_ok_iff.mpr reads)
    obtain ⟨after, ran, empty, effect⟩ :=
      @table_answered _ ⟨[], sink, world⟩ name limit _ ready willing described _ read
    simp only [exported, ran, Prod.mk.injEq, true_and]
    simpa [Output.bytes, empty] using effect.bytes

/-- Under a limit the rows behind it do not matter. -/
theorem exported_some_iff (answers : db.AnswersFirst name) (ready : sink.Ready world.files)
    (willing : sink.Willing) {n : UInt32} (limited : n ≠ 0) :
    exported db.storage name (some n) sink world = (.ok count, bytes) ↔
      ∃ columns rows, (db.storage.reply world.calls (.describe name)).outcome = .ok columns ∧
        ((db.rows name columns none).first n.toNat).Reads name columns rows ∧
        count = min n.toNat (db.rows name columns none).rows.length ∧
        bytes = sink.taken world.files ++
          Csv.document (columns.map Column.name :: rowRecords columns rows) := by
  have positive : 0 < n.toNat := UInt32.pos_iff_ne_zero.mpr limited
  simp only [exported_ok_iff ready willing, Sql.bound_some limited, answers.rows_some _ positive]
  -- the number of rows that are read is settled by how many there are
  constructor
  · rintro ⟨columns, rows, described, reads, rfl, written⟩
    exact ⟨columns, rows, described, reads, reads.length_first, written⟩
  · rintro ⟨columns, rows, described, reads, rfl, written⟩
    exact ⟨columns, rows, described, reads, reads.length_first.symm, written⟩

/-! ## Main result -/

/-- No limit and a limit of zero lead to the same result and the same bytes. Under any other limit
an export into a sink that takes everything succeeds if and only if the table can be described and
the rows within the limit can be read, whatever is behind them, and writes the header and these
rows. So it succeeds where the export under a larger limit or none does, and writes a front part of
the same bytes. -/
theorem exported_limited (answers : db.AnswersFirst name) (sink : Sink) (world : World) :
    exported db.storage name none sink world = exported db.storage name (some 0) sink world ∧
    (sink.Ready world.files → sink.Willing → ∀ n : UInt32, n ≠ 0 →
      (∀ count bytes, exported db.storage name (some n) sink world = (.ok count, bytes) ↔
        ∃ columns rows, (db.storage.reply world.calls (.describe name)).outcome = .ok columns ∧
          ((db.rows name columns none).first n.toNat).Reads name columns rows ∧
          count = min n.toNat (db.rows name columns none).rows.length ∧
          bytes = sink.taken world.files ++
            Csv.document (columns.map Column.name :: rowRecords columns rows)) ∧
      ∀ larger, (∀ m ∈ Sql.bound larger, n.toNat ≤ m) → ∀ count bytes,
        exported db.storage name larger sink world = (.ok count, bytes) →
        ∃ shorter, exported db.storage name (some n) sink world = (.ok (min n.toNat count), shorter) ∧
          shorter <+: bytes) := by
  refine ⟨exported_unlimited db name sink world, fun ready willing n limited =>
    ⟨fun count bytes => exported_some_iff answers ready willing limited, ?_⟩⟩
  intro larger enough count bytes ended
  -- the first rows of what was read under the larger limit are the first rows of the table
  obtain ⟨columns, rows, described, reads, rfl, rfl⟩ := (exported_ok_iff ready willing).mp ended
  have front := reads.first n.toNat
  rw [answers.first_rows columns enough] at front
  have count : min n.toNat rows.length = min n.toNat (db.rows name columns none).rows.length := by
    rw [← front.length_first, List.length_take]
  refine ⟨_, (exported_some_iff answers ready willing limited).mpr
    ⟨columns, _, described, front, count, rfl⟩, ?_⟩
  refine (List.prefix_append_right_inj _).mpr (Csv.document_prefix ?_)
  exact List.cons_prefix_cons.mpr ⟨rfl, (List.take_prefix n.toNat rows).map _⟩

/-- A table that can be read as far as its third row. -/
def frayed : Sqlite.Catalog where
  tables := [⟨"t", [("a", "TEXT")], [[.text [0x78, 0x2C]], [.null], [.text [0xC3]]]⟩]

def pairRows : List (List Postgres.Cell) :=
  [[⟨"INT4", some [0, 0, 0, 7]⟩], [⟨"INT4", none⟩]]

/-- A server that reads as many of its rows as it is asked for. -/
def pairServer : Postgres.Server :=
  { Postgres.Server.silent with
    columns := fun _ => some [⟨"n", "INT4"⟩]
    rows := fun _ _ bound => (bound.elim pairRows pairRows.take, true) }

theorem pairServer_reads : (pairServer.database.rows ⟨"t", by decide⟩ [⟨"n", "INT4"⟩] none).Reads
    ⟨"t", by decide⟩ [⟨"n", "INT4"⟩] [⟨[("n", .int64 7)]⟩, ⟨[("n", .int64 0)]⟩] :=
  ⟨rfl, .cons (by decide +kernel) (.cons (by decide +kernel) .nil)⟩

theorem exported_limited_frayed :
    exported frayed.database.storage ⟨"t", by decide⟩ (some 2) .endless ⟨⟨[], []⟩, [], 0, [], []⟩ =
        (.ok 2, Csv.document [["a"], ["x,"], [""]]) ∧
      (∃ shorter, exported frayed.database.storage ⟨"t", by decide⟩ (some 1) .endless
          ⟨⟨[], []⟩, [], 0, [], []⟩ = (.ok 1, shorter) ∧
        shorter <+: Csv.document [["a"], ["x,"], [""]]) ∧
      exported frayed.database.storage ⟨"t", by decide⟩ none .endless ⟨⟨[], []⟩, [], 0, [], []⟩ =
        (.error (.raised (.scan "a" "t" .unreadable)), Csv.document [["a"]]) ∧
      ∃ bytes shorter, exported pairServer.database.storage ⟨"t", by decide⟩ none .endless
          ⟨⟨[], []⟩, [], 0, [], []⟩ = (.ok 2, bytes) ∧
        exported pairServer.database.storage ⟨"t", by decide⟩ (some 1) .endless
          ⟨⟨[], []⟩, [], 0, [], []⟩ = (.ok 1, shorter) ∧ shorter <+: bytes := by
  have ready : Sink.endless.Ready ⟨[], []⟩ := trivial
  have two : exported frayed.database.storage ⟨"t", by decide⟩ (some 2) .endless
      ⟨⟨[], []⟩, [], 0, [], []⟩ = (.ok 2, Csv.document [["a"], ["x,"], [""]]) := by
    cbv
  have limited := (exported_limited (.sqlite frayed ⟨"t", by decide⟩) .endless
    ⟨⟨[], []⟩, [], 0, [], []⟩).2 ready ⟨rfl, rfl⟩ 1 (by decide)
  have front : pairServer.database.AnswersFirst ⟨"t", by decide⟩ :=
    .postgres pairServer _ fun columns n positive => by simp [pairServer]
  have all := (@exported_ok_iff pairServer.database ⟨"t", by decide⟩ none .endless
    ⟨⟨[], []⟩, [], 0, [], []⟩ _ _ ready ⟨rfl, rfl⟩).mpr ⟨_, _, rfl, pairServer_reads, rfl, rfl⟩
  have served := (exported_limited front .endless ⟨⟨[], []⟩, [], 0, [], []⟩).2 ready ⟨rfl, rfl⟩ 1
    (by decide)
  obtain ⟨shorter, ended, within⟩ := served.2 none (by simp [Sql.bound]) _ _ all
  exact ⟨two, limited.2 (some 2) (by decide) _ _ two, by cbv, _, shorter, all, ended, within⟩

end Project

end TableExport
