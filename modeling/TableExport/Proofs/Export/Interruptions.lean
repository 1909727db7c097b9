import Mathlib
import TableExport.Proofs.Export.Failures
import TableExport.Proofs.Export.Parallels
import TableExport.Proofs.Export.ReadingBack

/-!
# Projections that the storage stops

A projection asks its questions one after the other and writes between them. If the sink takes
everything, only a question without an answer can stop it. There are four such questions, and what
is written by then depends on which of them it is: the columns of a table and the rules are asked
for before the first record, the rows of a table after its header, and each count after the records
of all counts before it.
-/
namespace TableExport

/-! ## Conversations that end alike -/

/-- A question that is not answered is not the first of a conversation. -/
theorem Storage.not_gives_of_failed {storage : Storage} {history : List Call} {asked next : Exchange}
    {rest : List Exchange} {fault : Fault ExportError} (same : asked.call = next.call)
    (failed : (storage.reply history asked.call).outcome = .error fault) :
    ¬storage.Gives history (next :: rest) := by
  obtain ⟨call, answer⟩ := asked
  cases same
  intro given
  rw [given.1] at failed
  cases failed

/-- Two conversations that ask the same as long as they get the same answers end with the same
question, if each of them ends with a question that is not answered. -/
theorem Forked.ends_alike {storage : Storage} {history : List Call}
    {front front' back back' : List Exchange} {last last' : Exchange} {fault fault' : Fault ExportError}
    (forked : Forked (front ++ last :: back) (front' ++ last' :: back'))
    (given : storage.Gives history front) (again : storage.Gives history front')
    (failed : (storage.reply (history ++ front.map Exchange.call) last.call).outcome = .error fault)
    (failed' : (storage.reply (history ++ front'.map Exchange.call) last'.call).outcome =
      .error fault') : front = front' ∧ last.call = last'.call := by
  induction front generalizing front' history with
  | nil =>
    obtain _ | ⟨first', front'⟩ := front' <;> obtain _ | ⟨same, -⟩ := forked
    · exact ⟨rfl, same⟩
    · exact absurd again (Storage.not_gives_of_failed same (by simpa using failed))
  | cons first front ih =>
    obtain _ | ⟨first', front'⟩ := front' <;> obtain _ | ⟨same, onward⟩ := forked
    · exact absurd given (Storage.not_gives_of_failed same.symm (by simpa using failed'))
    · obtain rfl := @Exchange.eq_of_gives storage history _ _ same
        ⟨given.1, trivial⟩ ⟨again.1, trivial⟩
      rw [List.map_cons, List.append_cons] at failed failed'
      obtain ⟨rfl, calls⟩ := ih (onward rfl) given.2 again.2 failed failed'
      exact ⟨rfl, calls⟩

namespace Projection

/-! ## Where a projection can stop -/

/-- Where the storage can stop a projection: what it has answered by then, the call that it does
not answer, and the records that are written by then. -/
inductive Stops : Projection → List Exchange → Call → List (List String) → Prop
  | undescribed (name : TableName) (limit : Option UInt32) :
    Stops (.table name limit) [] (.describe name) []
  | unread (name : TableName) (limit : Option UInt32) (columns : List Column) :
    Stops (.table name limit) [⟨.describe name, columns⟩] (.readRows name columns limit)
      [columns.map Column.name]
  | uncounted (counted : List (TableName × Int)) (name : TableName) (later : List TableName) :
    Stops (.tableMetadata (counted.map Prod.fst ++ name :: later)) (countExchanges counted)
      (.countRecords name) (metadataHeader :: countRecords counted)
  | unruled : Stops .disabledRules [] .disabledRules []

variable {storage : Storage} {projection : Projection} {answered : List Exchange} {call : Call}
  {records : List (List String)} {fault : Fault ExportError} {history : List Call}

theorem Stops.records_unique {records' : List (List String)}
    (stops : projection.Stops answered call records)
    (stops' : projection.Stops answered call records') : records = records' := by
  cases stops with
  | undescribed name limit =>
    cases stops'
    rfl
  | unread name limit columns =>
    cases stops'
    rfl
  | uncounted counted name later =>
    generalize asked : countExchanges counted = answered at stops'
    generalize counted.map Prod.fst ++ name :: later = names at stops'
    cases stops' with
    | uncounted counted' name later' => rw [countExchanges_injective asked]
  | unruled =>
    cases stops'
    rfl

/-- With an answer to the call a projection may go on to its end. -/
theorem Stops.extends (stops : projection.Stops answered call records) (answer : call.Answer) :
    ∃ later header all count,
      projection.Shows (answered ++ ⟨call, answer⟩ :: later) header all count := by
  cases stops with
  | undescribed name limit =>
    exact ⟨[⟨.readRows name answer limit, []⟩], _, _, _, .table name limit answer []⟩
  | unread name limit columns => exact ⟨[], _, _, _, .table name limit columns answer⟩
  | uncounted counted name later =>
    have shown := Shows.tableMetadata (counted ++ (name, answer) :: later.map fun name => (name, 0))
    simp only [List.map_append, List.map_cons, List.map_map, Function.comp_def, List.map_id',
      countExchanges] at shown
    exact ⟨_, _, _, _, shown⟩
  | unruled => exact ⟨[], _, _, _, .disabledRules answer⟩

/-- What a projection asks depends on the answers only. -/
theorem Shows.forked {exchanges exchanges' : List Exchange} {header header' : List String}
    {all all' : List (List String)} {count count' : Option Nat}
    (shown : projection.Shows exchanges header all count)
    (shown' : projection.Shows exchanges' header' all' count') : Forked exchanges exchanges' := by
  cases shown with
  | table name limit columns rows =>
    cases shown' with
    | table _ _ columns' rows' =>
      refine .cons rfl fun same => ?_
      obtain rfl := Exchange.answer_injective same
      exact .cons rfl fun _ => .nil
  | tableNames names =>
    cases shown'
    exact .nil
  | tableMetadata counts =>
    generalize named : counts.map Prod.fst = names at shown'
    cases shown' with
    | tableMetadata counts' => exact counts_forked named
  | disabledRules rules =>
    cases shown'
    exact .cons rfl fun _ => .nil

theorem Shows.unique {exchanges : List Exchange} {header header' : List String}
    {all all' : List (List String)} {count count' : Option Nat}
    (shown : projection.Shows exchanges header all count)
    (shown' : projection.Shows exchanges header' all' count') :
    header = header' ∧ all = all' ∧ count = count' := by
  cases shown with
  | table name limit columns rows =>
    generalize asked : tableExchanges name limit columns rows = exchanges at shown'
    cases shown' with
    | table _ _ columns' rows' =>
      cases asked
      exact ⟨rfl, rfl, rfl⟩
  | tableNames names =>
    cases shown'
    exact ⟨rfl, rfl, rfl⟩
  | tableMetadata counts =>
    generalize asked : countExchanges counts = exchanges at shown'
    generalize counts.map Prod.fst = names at shown'
    cases shown' with
    | tableMetadata counts' =>
      rw [countExchanges_injective asked]
      exact ⟨rfl, rfl, rfl⟩
  | disabledRules rules =>
    generalize asked : ruleExchanges rules = exchanges at shown'
    cases shown' with
    | disabledRules rules' =>
      cases asked
      exact ⟨rfl, rfl, rfl⟩

/-- The storage stops a projection after these calls: it gives these answers, and then it fails. -/
structure Stopped (storage : Storage) (history : List Call) (projection : Projection)
    (answered : List Exchange) (call : Call) (records : List (List String))
    (fault : Fault ExportError) : Prop where
  stops : projection.Stops answered call records
  gives : storage.Gives history answered
  failed : (storage.reply (history ++ answered.map Exchange.call) call).outcome = .error fault

/-- A storage stops a projection in one place only. -/
theorem Stopped.unique {answered' : List Exchange} {call' : Call} {records' : List (List String)}
    {fault' : Fault ExportError}
    (stopped : Stopped storage history projection answered call records fault)
    (stopped' : Stopped storage history projection answered' call' records' fault') :
    answered = answered' ∧ call = call' ∧ records = records' ∧ fault = fault' := by
  obtain ⟨later, _, _, _, shown⟩ := stopped.stops.extends default
  obtain ⟨later', _, _, _, shown'⟩ := stopped'.stops.extends default
  obtain ⟨rfl, same⟩ := (shown.forked shown').ends_alike stopped.gives stopped'.gives stopped.failed
    stopped'.failed
  obtain rfl : call = call' := same
  exact ⟨rfl, rfl, stopped.stops.records_unique stopped'.stops,
    Except.error.inj (stopped.failed.symm.trans stopped'.failed)⟩

/-! ## What is written by then -/

section Items
variable {front back : List Item} {exchange : Exchange}

theorem Stops.of_table {name : TableName} {limit : Option UInt32} {columns : List Column}
    {rows : List Row} (split : tableItems name limit columns rows = front ++ .asked exchange :: back) :
    ∃ records, (table name limit).Stops (Item.exchanges front) exchange.call records ∧
      Item.body front = Csv.document records := by
  obtain ⟨asked, rfl⟩ | ⟨asked, written⟩ := Item.split_table split
  · rw [asked]
    exact ⟨_, .undescribed name limit, rfl⟩
  · -- the questions of a table are two, and this is the second
    have order := congrArg Item.exchanges split
    rw [Item.exchanges_table, Item.exchanges_append, Item.exchanges_cons] at order
    generalize Item.exchanges front = earlier at order ⊢
    rw [asked]
    obtain _ | ⟨first, _ | ⟨second, earlier⟩⟩ := earlier
    · obtain ⟨rfl, -⟩ := List.cons.inj order
      cases asked
    · obtain ⟨rfl, -⟩ := List.cons.inj order
      exact ⟨_, .unread name limit columns, written⟩
    · simp [tableExchanges] at order

theorem Stops.of_metadata {counts : List (TableName × Int)}
    (split : metadataItems counts = front ++ .asked exchange :: back) :
    ∃ records, (tableMetadata (counts.map Prod.fst)).Stops (Item.exchanges front) exchange.call
        records ∧ Item.body front = Csv.document records := by
  cases front with
  | nil => cases split
  | cons header front =>
    obtain ⟨rfl, rest⟩ := List.cons.inj split
    obtain ⟨counted, name, count, later, rfl, asked, rfl⟩ := Item.split_counts rest
    have stops := Stops.uncounted counted name (later.map Prod.fst)
    rw [asked, List.map_append, List.map_cons]
    refine ⟨_, by simpa [Item.exchanges_counts] using stops, ?_⟩
    simp [Item.body_counts, Csv.document_cons]

theorem Stops.of_rules {rules : List DisabledRule}
    (split : ruleItems rules = front ++ .asked exchange :: back) :
    ∃ records, disabledRules.Stops (Item.exchanges front) exchange.call records ∧
      Item.body front = Csv.document records := by
  obtain ⟨asked, rfl⟩ := Item.split_rules split
  rw [asked]
  exact ⟨_, .unruled, rfl⟩

end Items

variable {o o' : Output}

/-- Steps that can stop only where a projection can leave behind what the projection has written. -/
theorem stopped_of_follows {α : Type} {steps : Writing α} {plan : Plan Item α}
    (follows : (Item.course storage).Follows steps plan)
    (stops : ∀ {a front exchange back}, plan a (front ++ .asked exchange :: back) →
      ∃ records, projection.Stops (Item.exchanges front) exchange.call records ∧
        Item.body front = Csv.document records)
    (ready : o.sink.Ready o.world.files) (willing : o.sink.Willing)
    (h : steps o = .error fault o') :
    ∃ answered call records, Stopped storage o.world.calls projection answered call records fault ∧
      o'.bytes = o.bytes ++ Csv.document records ∧
      o'.world.calls = o.world.calls ++ answered.map Exchange.call ++ [call] := by
  obtain ⟨a, front, item, back, between, planned, ⟨effect, -⟩, breaks⟩ := follows.error ready h
  have still := effect.toWithin.willing willing
  obtain ⟨exchange, rfl, failed⟩ := breaks.asked still
  obtain ⟨records, stops, written⟩ := stops planned
  refine ⟨_, _, records, ⟨stops, effect.talks.gives, ?_⟩, ?_, ?_⟩
  · rw [← effect.talks.calls]
    exact failed.failed
  · rw [breaks.kept still, effect.bytes, written]
  · rw [failed.calls, effect.talks.calls]

/-- A last step that cannot fail changes nothing about failures. -/
theorem error_of_last {α β : Type} {first : Writing α} {last : α → β}
    (h : (first >>= fun a => pure (last a)) o = .error fault o') : first o = .error fault o' := by
  obtain failed | ⟨_, _, -, done⟩ := bind_error h
  · exact failed
  · cases done

/-- Where the sink takes everything, a projection that fails was stopped by the storage. All that
was written by then is in the sink. -/
theorem steps_error (ready : o.sink.Ready o.world.files) (willing : o.sink.Willing)
    (h : projection.steps storage o = .error fault o') :
    ∃ answered call records, Stopped storage o.world.calls projection answered call records fault ∧
      o'.bytes = o.bytes ++ Csv.document records ∧
      o'.world.calls = o.world.calls ++ answered.map Exchange.call ++ [call] := by
  cases projection with
  | table name limit =>
    refine stopped_of_follows (Project.table_follows storage name limit) ?_ ready willing
      (error_of_last h)
    rintro _ _ _ _ ⟨columns, rows, -, items⟩
    exact Stops.of_table items.symm
  | tableNames names =>
    refine stopped_of_follows (Project.tableNames_follows storage names) ?_ ready willing
      (error_of_last h)
    intro _ front exchange back items
    exact absurd items.symm Item.not_asked_of_listing
  | tableMetadata names =>
    refine stopped_of_follows (Project.tableMetadata_follows storage names) ?_ ready willing
      (error_of_last h)
    rintro _ _ _ _ ⟨counts, rfl, items⟩
    exact Stops.of_metadata items.symm
  | disabledRules =>
    refine stopped_of_follows (Project.disabledRules_follows storage) ?_ ready willing
      (error_of_last h)
    rintro _ _ _ _ ⟨rules, items⟩
    exact Stops.of_rules items.symm

/-- A projection that reports a failure holds nothing back. -/
theorem steps_tidy (storage : Storage) (projection : Projection) :
    Writing.Tidy (projection.steps storage) := by
  intro o error o' empty h
  cases projection with
  | table name limit => exact Writing.run_guarded_tidy _ _ empty (error_of_last h)
  | tableNames names => exact Writing.guarded_tidy _ empty (error_of_last h)
  | tableMetadata names => exact Writing.guarded_tidy _ empty (error_of_last h)
  | disabledRules => exact Writing.run_guarded_tidy _ _ empty (error_of_last h)

/-- Where the storage stops a projection, the projection fails as the storage does. -/
theorem steps_stopped (ready : o.sink.Ready o.world.files) (willing : o.sink.Willing)
    (stopped : Stopped storage o.world.calls projection answered call records fault) :
    ∃ o', projection.steps storage o = .error fault o' := by
  cases ran : projection.steps storage o with
  | error other o' =>
    obtain ⟨_, _, _, stopped', -⟩ := steps_error ready willing ran
    obtain ⟨-, -, -, rfl⟩ := stopped.unique stopped'
    exact ⟨o', rfl⟩
  | ok count o' =>
    -- a run that succeeds has an answer to every question
    obtain ⟨exchanges, header, all, shown, effect, -⟩ := steps_ok ready ran
    obtain ⟨later, _, _, _, shown'⟩ := stopped.stops.extends default
    obtain ⟨answer, replied⟩ :=
      (shown.forked shown').answered effect.talks.gives stopped.gives
    cases stopped.failed.symm.trans replied

/-- Where the storage answers all questions and the sink takes everything, a projection succeeds. -/
theorem steps_answered {exchanges : List Exchange} {header : List String} {count : Option Nat}
    (ready : o.sink.Ready o.world.files) (willing : o.sink.Willing)
    (shown : projection.Shows exchanges header records count)
    (gives : storage.Gives o.world.calls exchanges) :
    ∃ o', projection.steps storage o = .ok count o' ∧
      Effect storage o (Csv.document (header :: records)) exchanges o' ∧ o'.held = [] := by
  cases ran : projection.steps storage o with
  | error fault o' =>
    obtain ⟨_, _, _, stopped, -⟩ := steps_error ready willing ran
    obtain ⟨later, _, _, _, shown'⟩ := stopped.stops.extends default
    obtain ⟨answer, replied⟩ := (shown.forked shown').answered gives stopped.gives
    cases stopped.failed.symm.trans replied
  | ok count' o' =>
    obtain ⟨exchanges', header', records', shown', effect, empty⟩ := steps_ok ready ran
    obtain rfl := (shown.forked shown').eq_of_gives gives effect.talks.gives
    obtain ⟨rfl, rfl, rfl⟩ := shown.unique shown'
    exact ⟨o', rfl, effect, empty⟩

/-! ## Main result -/

/-- If a sink takes everything, a projection reports a failure exactly where the storage stops it,
and reports the storage's own failure. The sink then has the records written by then and nothing
else: no byte of a table that is not described or of rules that are not read, the header of a table
whose rows are not read, and the counts before the one that failed. Nothing is asked after the call
that failed. -/
theorem storage_stops {sink : Sink} {world : World} (ready : sink.Ready world.files)
    (willing : sink.Willing) :
    (∀ answered call records error,
      Stopped storage world.calls projection answered call records (.raised error) →
      ∃ after, projection.steps storage ⟨[], sink, world⟩ = .error (.raised error) after ∧
        after.sink.taken after.world.files = sink.taken world.files ++ Csv.document records ∧
        after.world.calls = world.calls ++ answered.map Exchange.call ++ [call]) ∧
    ∀ error after, projection.steps storage ⟨[], sink, world⟩ = .error (.raised error) after →
      ∃ answered call records,
        Stopped storage world.calls projection answered call records (.raised error) := by
  constructor
  · intro answered call records error stopped
    obtain ⟨after, ran⟩ := @steps_stopped _ _ _ _ _ _ ⟨[], sink, world⟩ ready willing stopped
    obtain ⟨_, _, _, stopped', bytes, calls⟩ := steps_error ready willing ran
    obtain ⟨rfl, rfl, rfl, -⟩ := stopped.unique stopped'
    have empty := steps_tidy storage projection rfl ran
    refine ⟨after, ran, ?_, calls⟩
    simpa [Output.bytes, empty] using bytes
  · intro error after ran
    obtain ⟨answered, call, records, stopped, -⟩ := steps_error ready willing ran
    exact ⟨answered, call, records, stopped⟩

/-- Of three tables the second cannot be counted. -/
def uncountable : Script where
  tables := [⟨"a", [⟨"id", "INT4"⟩], [], 2, none, none, none⟩,
    ⟨"b", [⟨"id", "INT4"⟩], [], 0, none, none, some (.query "lost" .refused)⟩,
    ⟨"c", [⟨"id", "INT4"⟩], [], 5, none, none, none⟩]
  listed := ["a", "b", "c"]

theorem storage_stops_uncountable :
    ∃ after, (tableMetadata [⟨"a", by decide⟩, ⟨"b", by decide⟩, ⟨"c", by decide⟩]).steps
        uncountable.storage ⟨[], .endless, ⟨⟨[], []⟩, [], 0, [], []⟩⟩ =
        .error (.raised (.query "lost" .refused)) after ∧
      after.sink.taken after.world.files = Csv.document [metadataHeader, ["a", "2"]] ∧
      after.world.calls = [.countRecords ⟨"a", by decide⟩, .countRecords ⟨"b", by decide⟩] := by
  have ready : Sink.endless.Ready ⟨[], []⟩ := trivial
  have stops := Stops.uncounted [(⟨"a", by decide⟩, 2)] ⟨"b", by decide⟩ [⟨"c", by decide⟩]
  have written : countRecords [(⟨"a", by decide⟩, 2)] = [["a", "2"]] := by cbv
  rw [written] at stops
  have stopped : Stopped uncountable.storage [] _ _ _ _ (.raised (.query "lost" .refused)) :=
    ⟨stops, ⟨by cbv, trivial⟩, by cbv⟩
  exact (@storage_stops _ _ _ ⟨⟨[], []⟩, [], 0, [], []⟩ ready ⟨rfl, rfl⟩).1 _ _ _ _ stopped

end Projection

end TableExport
