import TableExport.Proofs.Export.Failures
import TableExport.Proofs.Storage.Answers

/-!
# Why runs fail

A part of a run breaks because one of its questions is not answered or because its sink fails. The
tables are listed first and never again. So what a listing alone can fail with ends a run before
anything is opened, and all that comes later is a failure of the storage or of the output.
-/
namespace TableExport

/-! ## Parts -/

namespace Part
variable {storage : Storage} {target : Target} {outlet : Outlet} {part : Part} {a b : World}
  {fault : Fault ExportError}

theorem Breaks.cause (breaks : Breaks storage target.outlet part a fault b) :
    (∃ exchange ∈ part.exchanges, ∃ history,
      (storage.reply history exchange.call).outcome = .error fault) ∨
    ∃ context, fault = .raised (.write context .refused) := by
  cases breaks with
  | @unanswered _ _ exchange _ failed keeps =>
    exact .inl ⟨exchange, List.mem_singleton_self _, _, failed.failed⟩
  | unopened opening =>
    obtain ⟨-, -, -, written⟩ := Target.openSink_error opening
    exact .inr written
  | unwritten opening effect breaks held =>
    cases breaks with
    | unanswered within failed kept =>
      exact .inl ⟨_, by simp [exchanges], _, failed.failed⟩
    | refused silent refused => exact .inr refused.reported
  | uncommitted opening effect committing =>
    exact .inr ((Target.openSink_ok opening).commit_error effect.origin committing)

/-- Where no part is passed nothing is done. -/
theorem Passed.keeps {parts : List Part} (passed : Passed storage outlet a parts b)
    (none : parts = []) : Keeps a b ∧ b.calls = a.calls := by
  induction passed with
  | idle talks keeps => exact ⟨keeps, by simpa using talks.calls⟩
  | one passes => cases none
  | trans first second ihFirst ihSecond =>
    obtain ⟨rfl, rfl⟩ := List.append_eq_nil_iff.mp none
    obtain ⟨early, before⟩ := ihFirst rfl
    obtain ⟨late, after⟩ := ihSecond rfl
    exact ⟨early.trans late, after.trans before⟩

end Part

/-- The tables are listed by the first question of a run and by no other. -/
theorem Survey.listing_first (survey : Survey) (options : ExportOptions) :
    ∃ later, survey.exchanges options = ⟨.listTables, survey.names⟩ :: later ∧
      ∀ exchange ∈ later, exchange.call ≠ .listTables := by
  refine ⟨survey.tables.flatMap (TableData.exchanges options) ++
    (if options.metadata then countExchanges survey.counts else []) ++
    (if options.disabledRules then ruleExchanges survey.rules else []) ++ [⟨.close, ()⟩], rfl,
    fun exchange member => ?_⟩
  simp only [List.mem_append, List.mem_cons, List.mem_flatMap, TableData.exchanges,
    tableExchanges, List.mem_ite_nil_right, countExchanges, List.mem_map, ruleExchanges,
    List.not_mem_nil, or_false] at member
  rcases member with ((⟨data, -, rfl | rfl⟩ | ⟨-, entry, -, rfl⟩) | ⟨-, rfl⟩) | rfl <;>
    simp only [ne_eq, reduceCtorEq, not_false_eq_true]

/-! ## Runs on databases -/

/-- What can end a run once its tables are listed. -/
inductive LateFault (db : Database) : Fault ExportError → Prop
  | storage {e : ExportError} (kind : e.isStorageError = true) : LateFault db (.raised e)
  | output {e : ExportError} (kind : e.isOutputError = true) : LateFault db (.raised e)
  | crash (crashing : db.Crashing) : LateFault db .crash

theorem LateFault.of_failure {db : Database} {call : Call} {fault : Fault ExportError}
    (failure : db.Failure call fault) (other : call ≠ .listTables) : LateFault db fault := by
  cases failure with
  | storage kind => exact .storage kind
  | unnamed tables empty kind => exact absurd rfl other
  | crash crashing => exact .crash crashing

theorem BrokenOff.cause {db : Database} {target : Target} {options : ExportOptions}
    {capture : Option Log.Capture} {before between after : World} {survey : Survey}
    {done : List Part} {part : Part} {fault : Fault ExportError}
    (broken : BrokenOff db.storage target.outlet options capture before survey done part between
      fault after) :
    (Keeps before after ∧ (db.storage.reply before.calls .listTables).outcome = .error fault) ∨
      LateFault db fault := by
  obtain ⟨seen, later, split⟩ := broken.inOrder
  cases done with
  | nil =>
    -- the first part is the listing, and nothing is stored for it
    cases split
    obtain ⟨idle, same⟩ := broken.passed.keeps rfl
    cases broken.breaks with
    | unanswered failed keeps => exact .inl ⟨idle.trans keeps, same ▸ failed.failed⟩
  | cons first done =>
    right
    obtain ⟨exchange, asked, history, failed⟩ | ⟨context, rfl⟩ := broken.breaks.cause
    · -- a later question is another one than the listing
      obtain ⟨rest, all, others⟩ := survey.listing_first options
      rw [← survey.exchanges_run options (logArtifacts options capture seen), split] at all
      obtain ⟨rfl, -⟩ := List.cons.inj split
      have behind : done.flatMap Part.exchanges ++
          (part.exchanges ++ later.flatMap Part.exchanges) = rest := by
        simpa [Part.exchanges] using all
      refine .of_failure (Database.reply_error failed) (others exchange ?_)
      simp [← behind, asked]
    · exact .output rfl

/-- A run on a database is refused at once, or cannot list the tables, or fails with a failure of
the storage or of the output. In the first two cases nothing is stored. -/
theorem exportDatabase_cause {db : Database} {target : Target} {options : ExportOptions}
    {capture : Option Log.Capture} {fault : Fault ExportError} {world world' : World}
    (h : exportDatabase db.storage target options capture world = .error fault world') :
    (options.log = true ∧ capture = none) ∨
    (Keeps world world' ∧ (db.storage.reply world.calls .listTables).outcome = .error fault) ∨
    LateFault db fault := by
  obtain ⟨selected, none, -⟩ | ⟨survey, done, part, between, broken⟩ := exportDatabase_brokenOff h
  · exact .inl ⟨selected, none⟩
  · exact .inr broken.cause

end TableExport
