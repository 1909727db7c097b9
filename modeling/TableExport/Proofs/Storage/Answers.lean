import TableExport.Proofs.Table.Cells

/-!
# Answers of databases

A database that is open answers each call by what it holds. After it is closed every call but
closing is refused. A call that fails is a failure of the storage, with two exceptions: a listing
may have a name that no table can have, and decoding a value may end the process.
-/
namespace TableExport.Database
variable {db : Database} {history : List Call} {call : Call}

theorem reply_open (opened : Call.close ∉ history) :
    (db.storage.reply history call).outcome = (db.answer call).outcome := by
  have still : isClosed history call = false := by simp [isClosed, opened]
  show (db.reply history call).outcome = _
  simp only [reply, still, Bool.false_eq_true, if_false]

/-- What a read ends with if all its rows are read. -/
theorem collect_ok {table : TableName} {columns : List Column} {cursor : Cursor} {rows : List Row}
    (read : cursor.rows.mapM (fun source => Row.materialize source table.text columns) = .ok rows) :
    collect table columns cursor call =
      if cursor.complete then .ok rows else .error (.raised (.query call.context .refused)) := by
  rw [collect, read]

theorem collect_error {table : TableName} {columns : List Column} {cursor : Cursor}
    {fault : Fault ExportError}
    (failed : cursor.rows.mapM (fun source => Row.materialize source table.text columns) =
      .error fault) : collect table columns cursor call = .error fault := by
  rw [collect, failed]

/-! ## Calls that fail -/

/-- Decoding some value of a row ends the process. -/
def Crashing (db : Database) : Prop :=
  ∃ table columns bound, ∃ source ∈ (db.rows table columns bound).rows,
    ∃ position kind, source.decode position kind = .error .crash

/-- What a call can fail with. -/
inductive Failure (db : Database) : Call → Fault ExportError → Prop
  | storage {call : Call} {e : ExportError} (kind : e.isStorageError = true) :
    Failure db call (.raised e)
  | unnamed {names : List String} {e : ExportError} (tables : db.tables = some names)
    (empty : "" ∈ names) (kind : e.kind = .configuration) : Failure db .listTables (.raised e)
  | crash {table : TableName} {columns : List Column} {limit : Option UInt32}
    (crashing : db.Crashing) : Failure db (.readRows table columns limit) .crash

theorem all_error {names : List String} {fault : Fault ExportError}
    (failed : TableName.all names = .error fault) :
    "" ∈ names ∧ ∃ e : ExportError, fault = .raised e ∧ e.kind = .configuration := by
  unfold TableName.all at failed
  split at failed
  next => cases failed
  next e refused =>
    cases failed
    obtain ⟨name, member, refusal⟩ := exists_of_mapM_error refused
    unfold TableName.ofText at refusal
    split at refusal
    next empty =>
      cases refusal
      exact ⟨empty ▸ member, _, rfl, rfl⟩
    next => cases refusal

theorem described_error {table : TableName} {columns : List Column} {fault : Fault ExportError}
    (failed : (described table columns).outcome = .error fault) :
    ∃ e : ExportError, fault = .raised e ∧ e.isStorageError = true := by
  unfold described at failed
  split at failed
  next =>
    cases failed
    exact ⟨_, rfl, rfl⟩
  next => cases failed

theorem answer_error {fault : Fault ExportError}
    (failed : (db.answer call).outcome = .error fault) : db.Failure call fault := by
  cases call with
  | listTables =>
    cases tables : db.tables with
    | none =>
      simp only [answer, tables] at failed
      cases failed
      exact .storage rfl
    | some names =>
      simp only [answer, tables] at failed
      obtain ⟨empty, e, rfl, kind⟩ := all_error failed
      exact .unnamed tables empty kind
  | describe table =>
    cases columns : db.columns table with
    | none =>
      simp only [answer, columns] at failed
      cases failed
      exact .storage rfl
    | some columns' =>
      simp only [answer, columns] at failed
      obtain ⟨e, rfl, kind⟩ := described_error failed
      exact .storage kind
  | readRows table columns limit =>
    simp only [answer, collect] at failed
    split at failed
    next other unread =>
      cases failed
      obtain ⟨source, member, refused⟩ := exists_of_mapM_error unread
      obtain ⟨e, rfl, scan⟩ | ⟨rfl, position, kind, crashes⟩ := Row.materialize_error refused
      · exact .storage (by simp [ExportError.isStorageError, scan])
      · exact .crash ⟨table, columns, _, source, member, position, kind, crashes⟩
    next rows read =>
      split at failed
      next => cases failed
      next =>
        cases failed
        exact .storage rfl
  | countRecords table =>
    cases count : db.count table with
    | none =>
      simp only [answer, count] at failed
      cases failed
      exact .storage rfl
    | some n =>
      simp only [answer, count] at failed
      cases failed
  | disabledRules =>
    cases rules : db.disabledRules with
    | none =>
      simp only [answer, rules] at failed
      cases failed
      exact .storage rfl
    | some found =>
      simp only [answer, rules] at failed
      cases failed
  | close => cases failed

theorem reply_error {fault : Fault ExportError}
    (failed : (db.storage.reply history call).outcome = .error fault) : db.Failure call fault := by
  have replied : (db.reply history call).outcome = .error fault := failed
  cases closed : isClosed history call with
  | true =>
    simp only [reply, closed, if_true] at replied
    cases replied
    exact .storage rfl
  | false =>
    simp only [reply, closed, Bool.false_eq_true, if_false] at replied
    exact answer_error replied

end TableExport.Database
