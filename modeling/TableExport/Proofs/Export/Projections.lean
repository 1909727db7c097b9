import TableExport.Proofs.Export.Effects

/-!
# What projections write

Each projection asks the storage for what it shows and writes a header with one record
per item of the answers, in their order.
-/
namespace TableExport

/-! ## Records -/

/-- The record of each row of a table, one field per column. -/
def rowRecords (columns : List Column) (rows : List Row) : List (List String) :=
  rows.map fun row => row.project columns

/-- One record of one field for each table. -/
def nameRecords (names : List TableName) : List (List String) :=
  names.map fun name => [name.text]

def countRecords (counts : List (TableName × Int)) : List (List String) :=
  counts.map fun (name, count) => [name.text, Decimal.integer count]

def ruleRecords (rules : List DisabledRule) : List (List String) :=
  rules.map fun rule => [rule.rule, Decimal.integer rule.count]

/-! ## Conversations -/

/-- What is asked to export a table, with the answers. -/
def tableExchanges (name : TableName) (limit : Option UInt32) (columns : List Column)
    (rows : List Row) : List Exchange :=
  [⟨.describe name, columns⟩, ⟨.readRows name columns limit, rows⟩]

def countExchanges (counts : List (TableName × Int)) : List Exchange :=
  counts.map fun (name, count) => ⟨.countRecords name, count⟩

def ruleExchanges (rules : List DisabledRule) : List Exchange := [⟨.disabledRules, rules⟩]

/-! ## Items -/

/-- A header with records after it. -/
def listingItems (header : List String) (rows : List (List String)) : List Item :=
  .record header :: rows.map .record ++ [.flushed]

def tableItems (name : TableName) (limit : Option UInt32) (columns : List Column)
    (rows : List Row) : List Item :=
  .asked ⟨.describe name, columns⟩ :: .record (columns.map Column.name) ::
    .asked ⟨.readRows name columns limit, rows⟩ :: (rowRecords columns rows).map .record ++ [.flushed]

/-- A count is asked for and written before the next one is asked for. -/
def countItems (counts : List (TableName × Int)) : List Item :=
  counts.flatMap fun (name, count) =>
    [.asked ⟨.countRecords name, count⟩, .record [name.text, Decimal.integer count]]

def metadataItems (counts : List (TableName × Int)) : List Item :=
  .record metadataHeader :: countItems counts ++ [.flushed]

def ruleItems (rules : List DisabledRule) : List Item :=
  .asked ⟨.disabledRules, rules⟩ :: listingItems disabledRulesHeader (ruleRecords rules)

namespace Item

theorem exchanges_listing (header : List String) (rows : List (List String)) :
    exchanges (listingItems header rows) = [] := by
  simp [listingItems]

theorem body_listing (header : List String) (rows : List (List String)) :
    body (listingItems header rows) = Csv.document (header :: rows) := by
  simp [listingItems, Csv.document_cons]

theorem exchanges_table (name : TableName) (limit : Option UInt32) (columns : List Column)
    (rows : List Row) :
    exchanges (tableItems name limit columns rows) = tableExchanges name limit columns rows := by
  simp [tableItems, tableExchanges]

theorem body_table (name : TableName) (limit : Option UInt32) (columns : List Column)
    (rows : List Row) :
    body (tableItems name limit columns rows) =
      Csv.document (columns.map Column.name :: rowRecords columns rows) := by
  simp [tableItems, Csv.document_cons]

theorem exchanges_counts (counts : List (TableName × Int)) :
    exchanges (countItems counts) = countExchanges counts := by
  induction counts with
  | nil => rfl
  | cons entry rest ih => exact congrArg _ ih

theorem body_counts (counts : List (TableName × Int)) :
    body (countItems counts) = Csv.document (countRecords counts) := by
  induction counts with
  | nil => rfl
  | cons entry rest ih =>
    have later : countRecords (entry :: rest) =
      [entry.1.text, Decimal.integer entry.2] :: countRecords rest := rfl
    rw [later, Csv.document_cons, ← ih]
    rfl

theorem exchanges_metadata (counts : List (TableName × Int)) :
    exchanges (metadataItems counts) = countExchanges counts := by
  simp [metadataItems, exchanges_counts]

theorem body_metadata (counts : List (TableName × Int)) :
    body (metadataItems counts) = Csv.document (metadataHeader :: countRecords counts) := by
  simp [metadataItems, body_counts, Csv.document_cons]

theorem exchanges_rules (rules : List DisabledRule) :
    exchanges (ruleItems rules) = ruleExchanges rules := by
  simp [ruleItems, ruleExchanges, exchanges_listing]

theorem body_rules (rules : List DisabledRule) :
    body (ruleItems rules) = Csv.document (disabledRulesHeader :: ruleRecords rules) := by
  simp [ruleItems, body_listing]

theorem flushed_listing (header : List String) (rows : List (List String)) :
    (listingItems header rows).getLast? = some .flushed := List.getLast?_concat

theorem flushed_table (name : TableName) (limit : Option UInt32) (columns : List Column)
    (rows : List Row) : (tableItems name limit columns rows).getLast? = some .flushed :=
  List.getLast?_concat

theorem flushed_metadata (counts : List (TableName × Int)) :
    (metadataItems counts).getLast? = some .flushed := List.getLast?_concat

theorem flushed_rules (rules : List DisabledRule) :
    (ruleItems rules).getLast? = some .flushed := by
  rw [ruleItems, List.getLast?_cons, flushed_listing]
  rfl

end Item

/-! ## Projections -/

namespace Project
variable {storage : Storage} {o o' : Output} {done : Unit}

theorem table_follows (storage : Storage) (name : TableName) (limit : Option UInt32) :
    (Item.course storage).Follows (table storage name limit) fun n items =>
      ∃ columns rows, n = rows.length ∧ items = tableItems name limit columns rows := by
  -- described, headed, read, written, ended, reported
  refine ((Writing.ask_follows storage _).bind fun columns => Writing.guarded_follows
    ((Writing.record_follows storage _ _).bind fun _ =>
      (Writing.ask_follows storage _).bind fun rows =>
      (Writing.records_follows storage _ _).bind fun _ =>
      (Writing.finish_follows storage _).bind fun _ =>
      (Writing.report_follows storage _).bind fun _ => .pure _)).mono ?_
  rintro n _ ⟨columns, _, _, rfl, ⟨_, _, _, rfl, ⟨rows, _, _, rfl, ⟨_, _, _, rfl,
    ⟨_, _, _, rfl, ⟨_, _, _, rfl, ⟨rfl, rfl⟩, rfl⟩, rfl⟩, rfl⟩, rfl⟩, rfl⟩, rfl⟩
  exact ⟨columns, rows, rfl, by simp [tableItems, rowRecords]⟩

theorem listing_follows (storage : Storage) (artifact : String) (header : List String)
    (rows : List (List String)) :
    (Item.course storage).Follows (Writing.guarded (do
      Writing.record artifact header
      Writing.records artifact rows
      Writing.finish artifact)) (.only (listingItems header rows)) := by
  refine (Writing.guarded_follows ((Writing.record_follows storage _ _).bind fun _ =>
    (Writing.records_follows storage _ _).bind fun _ => Writing.finish_follows storage _)).mono ?_
  rintro _ _ ⟨_, _, _, rfl, ⟨_, _, _, rfl, rfl, rfl⟩, rfl⟩
  rfl

theorem tableNames_follows (storage : Storage) (names : List TableName) :
    (Item.course storage).Follows (tableNames names)
      (.only (listingItems tableNamesHeader (nameRecords names))) :=
  listing_follows storage _ _ _

theorem counts_follows (storage : Storage) (names : List TableName) :
    (Item.course storage).Follows (counts storage names) fun _ items =>
      ∃ found : List (TableName × Int), found.map Prod.fst = names ∧ items = countItems found := by
  induction names with
  | nil => exact (Course.Follows.pure ()).mono fun planned => ⟨[], rfl, planned.2⟩
  | cons name rest ih =>
    refine ((Writing.ask_follows storage _).bind fun count =>
      (Writing.record_follows storage _ _).bind fun _ => ih).mono ?_
    rintro _ _ ⟨count, _, _, rfl, ⟨_, _, _, rfl, ⟨found, rfl, rfl⟩, rfl⟩, rfl⟩
    exact ⟨(name, count) :: found, rfl, rfl⟩

theorem tableMetadata_follows (storage : Storage) (names : List TableName) :
    (Item.course storage).Follows (tableMetadata storage names) fun _ items =>
      ∃ found : List (TableName × Int), found.map Prod.fst = names ∧ items = metadataItems found := by
  refine (Writing.guarded_follows ((Writing.record_follows storage _ _).bind fun _ =>
    (counts_follows storage names).bind fun _ => Writing.finish_follows storage _)).mono ?_
  rintro _ _ ⟨_, _, _, rfl, ⟨_, _, _, ⟨found, named, rfl⟩, rfl, rfl⟩, rfl⟩
  exact ⟨found, named, rfl⟩

theorem disabledRules_follows (storage : Storage) :
    (Item.course storage).Follows (disabledRules storage) fun _ items =>
      ∃ rules, items = ruleItems rules := by
  refine ((Writing.ask_follows storage _).bind fun rules =>
    listing_follows storage _ _ _).mono ?_
  rintro _ _ ⟨rules, _, _, rfl, rfl, rfl⟩
  exact ⟨rules, rfl⟩

/-! ## Projections that succeed -/

theorem table_ok {name : TableName} {limit : Option UInt32} {n : Nat}
    (ready : o.sink.Ready o.world.files) (h : table storage name limit o = .ok n o') :
    ∃ columns rows,
      Effect storage o (Csv.document (columns.map Column.name :: rowRecords columns rows))
        (tableExchanges name limit columns rows) o' ∧
      o'.held = [] ∧ n = rows.length := by
  obtain ⟨_, ⟨columns, rows, counted, rfl⟩, effect, empty⟩ :=
    Writing.follows_ok (table_follows storage name limit)
      (by
        rintro _ _ ⟨columns, rows, -, rfl⟩
        exact Item.flushed_table ..) ready h
  rw [Item.body_table, Item.exchanges_table] at effect
  exact ⟨columns, rows, effect, empty, counted⟩

theorem tableNames_ok {names : List TableName} (storage : Storage)
    (ready : o.sink.Ready o.world.files) (h : tableNames names o = .ok done o') :
    Effect storage o (Csv.document (tableNamesHeader :: nameRecords names)) [] o' ∧
      o'.held = [] := by
  obtain ⟨_, rfl, effect, empty⟩ := Writing.follows_ok (tableNames_follows storage names)
    (by
    rintro _ _ rfl
    exact Item.flushed_listing ..) ready h
  rw [Item.body_listing, Item.exchanges_listing] at effect
  exact ⟨effect, empty⟩

theorem disabledRules_ok (ready : o.sink.Ready o.world.files)
    (h : disabledRules storage o = .ok done o') :
    ∃ rules,
      Effect storage o (Csv.document (disabledRulesHeader :: ruleRecords rules))
        (ruleExchanges rules) o' ∧
      o'.held = [] := by
  obtain ⟨_, ⟨rules, rfl⟩, effect, empty⟩ := Writing.follows_ok (disabledRules_follows storage)
    (by
    rintro _ _ ⟨rules, rfl⟩
    exact Item.flushed_rules rules) ready h
  rw [Item.body_rules, Item.exchanges_rules] at effect
  exact ⟨rules, effect, empty⟩

/-- Nothing is written if the rules are not answered, whatever the sink. -/
theorem disabledRules_unanswered {fault : Fault ExportError}
    (failed : (storage.reply o.world.calls .disabledRules).outcome = .error fault) :
    ∃ o', disabledRules storage o = .error fault o' ∧ o'.sink = o.sink ∧
      o'.world.files = o.world.files := by
  simp only [disabledRules, Bind.bind, EStateM.bind, Writing.run, Run.ask, failed]
  exact ⟨_, rfl, rfl, rfl⟩

theorem tableMetadata_ok {names : List TableName} (ready : o.sink.Ready o.world.files)
    (h : tableMetadata storage names o = .ok done o') :
    ∃ found : List (TableName × Int), found.map Prod.fst = names ∧
      Effect storage o (Csv.document (metadataHeader :: countRecords found))
        (countExchanges found) o' ∧
      o'.held = [] := by
  obtain ⟨_, ⟨found, named, rfl⟩, effect, empty⟩ :=
    Writing.follows_ok (tableMetadata_follows storage names)
      (by
        rintro _ _ ⟨found, -, rfl⟩
        exact Item.flushed_metadata found) ready h
  rw [Item.body_metadata, Item.exchanges_metadata] at effect
  exact ⟨found, named, effect, empty⟩

/-! ## Sinks that never fail -/

/-- Where the sink never fails, a table is not exported only if a question was not answered. -/
theorem table_error {name : TableName} {limit : Option UInt32} {fault : Fault ExportError}
    (ready : o.sink.Ready o.world.files) (willing : o.sink.Willing)
    (h : table storage name limit o = .error fault o') :
    (storage.reply o.world.calls (.describe name)).outcome = .error fault ∨
      ∃ columns, (storage.reply o.world.calls (.describe name)).outcome = .ok columns ∧
        (storage.reply (o.world.calls ++ [.describe name]) (.readRows name columns limit)).outcome =
          .error fault := by
  obtain ⟨_, done, _, rest, between, ⟨columns, rows, -, items⟩, ⟨effect, -⟩, breaks⟩ :=
    (table_follows storage name limit).error ready h
  obtain ⟨exchange, rfl, failed⟩ := breaks.asked (effect.toWithin.willing willing)
  have asked := congrArg Item.exchanges items
  rw [Item.exchanges_table, Item.exchanges_append, Item.exchanges_cons] at asked
  have gives := effect.talks.gives
  have calls := effect.talks.calls
  have unanswered := failed.failed
  rw [calls] at unanswered
  -- what was asked before is nothing, or the columns
  generalize Item.exchanges done = earlier at asked gives unanswered
  obtain _ | ⟨first, _ | ⟨second, earlier⟩⟩ := earlier
  · obtain ⟨rfl, -⟩ := List.cons.inj asked
    exact .inl (by simpa using unanswered)
  · obtain ⟨rfl, behind⟩ := List.cons.inj asked
    obtain ⟨rfl, -⟩ := List.cons.inj behind
    exact .inr ⟨columns, gives.1, unanswered⟩
  · simp [tableExchanges] at asked

/-- Where the sink never fails, the answers of the storage decide how a table is exported. -/
theorem table_answered {name : TableName} (limit : Option UInt32) {columns : List Column}
    (ready : o.sink.Ready o.world.files) (willing : o.sink.Willing)
    (described : (storage.reply o.world.calls (.describe name)).outcome = .ok columns)
    {answer : Except (Fault ExportError) (List Row)}
    (read : (storage.reply (o.world.calls ++ [.describe name])
      (.readRows name columns limit)).outcome = answer) :
    match answer with
    | .ok rows => ∃ o', table storage name limit o = .ok rows.length o' ∧ o'.held = [] ∧
        Effect storage o (Csv.document (columns.map Column.name :: rowRecords columns rows))
          (tableExchanges name limit columns rows) o'
    | .error fault => ∃ o', table storage name limit o = .error fault o' := by
  cases ran : table storage name limit o with
  | ok n o' =>
    obtain ⟨found, rows, effect, empty, rfl⟩ := table_ok ready ran
    obtain ⟨same, read', -⟩ := effect.talks.gives
    cases described.symm.trans same
    cases read.symm.trans read'
    exact ⟨o', rfl, empty, effect⟩
  | error fault o' =>
    obtain undescribed | ⟨found, same, unread⟩ := table_error ready willing ran
    · cases described.symm.trans undescribed
    · cases described.symm.trans same
      cases read.symm.trans unread
      exact ⟨o', rfl⟩

end Project

end TableExport
