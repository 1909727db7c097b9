import TableExport.Proofs.Export.Runs

/-!
# The order of a run

A run asks its storage in a fixed order and stops at the first failure, be it that of a call,
of a sink, or of opening or completing an artifact. The storage is closed at most once, after
all data is stored; the log is the last thing to be stored.
-/
namespace TableExport

/-- The world that a run leaves, however it ends. -/
def Run.left {α : Type} : EStateM.Result (Fault ExportError) World α → World
  | .ok _ world => world
  | .error _ world => world

/-! ## Going through parts -/

namespace Part
variable {α : Type} {storage : Storage} {outlet : Outlet} {a b c : World} {xs ys : List Part}

/-- A run breaks in the first of two lists of parts or gets to the second one. -/
theorem Reached.split {result : EStateM.Result (Fault ExportError) World α}
    (reached : Reached storage outlet a (xs ++ ys) result) :
    (∃ fault after, result = .error fault after ∧ Reached storage outlet a xs result) ∨
      ∃ b, Passed storage outlet a xs b ∧ Reached storage outlet b ys result := by
  cases reached with
  | all passed =>
    obtain ⟨b, early, late⟩ := passed.split rfl
    exact .inr ⟨b, early, .all late⟩
  | @broken done later part between after fault same passed breaks =>
    rcases List.append_eq_append_iff.mp same with ⟨more, rfl, rfl⟩ | ⟨more, rfl, rest⟩
    · obtain ⟨b, early, late⟩ := passed.split rfl
      exact .inr ⟨b, early, .broken rfl late breaks⟩
    · cases more with
      | nil =>
        obtain rfl : part :: later = ys := rest
        rw [List.append_nil]
        exact .inr ⟨between, passed, .broken (List.nil_append _).symm (.refl storage outlet _) breaks⟩
      | cons first more =>
        cases rest
        exact .inl ⟨fault, after, rfl, .broken rfl passed breaks⟩

end Part

/-! ## Questions of a run -/

/-- Of these questions, some were asked in order. All were answered but maybe the last one
asked, and then the run ended with that failure. -/
structure Inquiry {α : Type} (storage : Storage) (before : World) (exchanges answered : List Exchange)
    (failed : Option Call) (result : EStateM.Result (Fault ExportError) World α) : Prop where
  calls : (Run.left result).calls = before.calls ++ (answered.map Exchange.call ++ failed.toList)
  ordered : answered.map Exchange.call ++ failed.toList <+: exchanges.map Exchange.call
  agreed : answered <+: exchanges
  gives : storage.Gives before.calls answered
  failure : ∀ call ∈ failed, ∃ fault after, result = .error fault after ∧
    (storage.reply (before.calls ++ answered.map Exchange.call) call).outcome = .error fault
  complete : ∀ {a after}, result = .ok a after → answered = exchanges ∧ failed = none

namespace Inquiry
variable {α : Type} {storage : Storage} {before after : World} {exchanges : List Exchange}

theorem of_talks (a : α) (talks : Talks storage before exchanges after) :
    Inquiry storage before exchanges exchanges none (.ok a after) where
  calls := by simpa [Run.left] using talks.calls
  ordered := by simp
  agreed := List.prefix_refl _
  gives := talks.gives
  failure := nofun
  complete _ := ⟨rfl, rfl⟩

theorem of_halted {fault : Fault ExportError} (halted : Halted storage before exchanges fault after) :
    ∃ answered failed, @Inquiry α storage before exchanges answered failed (.error fault after) := by
  cases halted with
  | @between answered later _ _ talks =>
    refine ⟨answered, none, ?_, ?_, List.prefix_append .., talks.gives, nofun, nofun⟩
    · simpa [Run.left] using talks.calls
    · simp
  | @unanswered answered later exchange between _ _ talks failed =>
    refine ⟨answered, some exchange.call, ?_, ?_, List.prefix_append .., talks.gives, ?_, nofun⟩
    · simp [Run.left, failed.calls, talks.calls]
    · simp
    · rintro _ ⟨⟩
      exact ⟨fault, after, rfl, talks.calls ▸ failed.failed⟩

end Inquiry

/-- Parts that are gone through in order ask their questions in order. -/
theorem Part.Reached.inquiry {α : Type} {storage : Storage} {outlet : Outlet} {before : World}
    {parts : List Part} {result : EStateM.Result (Fault ExportError) World α}
    (reached : Reached storage outlet before parts result) (proper : outlet.Proper) :
    ∃ answered failed, Inquiry storage before (parts.flatMap exchanges) answered failed result := by
  cases reached with
  | all passed => exact ⟨_, none, .of_talks _ (passed.talks proper)⟩
  | @broken done later part between after fault same passed breaks =>
    rw [same, List.flatMap_append, List.flatMap_cons]
    exact Inquiry.of_halted (((breaks.halted proper).append _).after (passed.talks proper))

theorem Survey.close_not_mem (survey : Survey) (options : ExportOptions) :
    Call.close ∉ ((survey.parts options).flatMap Part.exchanges).map Exchange.call := by
  -- the storage is closed by the last question and by no other
  have others : ∀ exchange ∈ (survey.parts options).flatMap Part.exchanges,
      exchange.call ≠ .close := by
    have known := survey.exchanges_parts options
    unfold exchanges at known
    rw [List.append_cancel_right known]
    intro exchange member
    simp only [List.mem_append, List.mem_cons, List.mem_flatMap, TableData.exchanges,
      tableExchanges, List.mem_ite_nil_right, countExchanges, List.mem_map, ruleExchanges,
      List.not_mem_nil, or_false] at member
    rcases member with ((rfl | ⟨data, -, rfl | rfl⟩) | ⟨-, entry, -, rfl⟩) | ⟨-, rfl⟩ <;>
      simp only [ne_eq, reduceCtorEq, not_false_eq_true]
  intro member
  obtain ⟨exchange, found, closing⟩ := List.mem_map.mp member
  exact others exchange found closing

/-! ## Main result -/

/-- A run that went through the parts of a survey in order. -/
structure InOrder (storage : Storage) (outlet : Outlet) (options : ExportOptions)
    (before : World) (survey : Survey) (log : List Artifact) (answered : List Exchange)
    (failed : Option Call) (result : EStateM.Result (Fault ExportError) World Summary) : Prop where
  counted : options.metadata = true → survey.counts.map Prod.fst = survey.names
  reached : Part.Reached storage outlet before (survey.run options log) result
  inquiry : Inquiry storage before (survey.exchanges options) answered failed result
  -- The storage is closed once at most, when all data has been stored.
  closedOnce : (answered.map Exchange.call ++ failed.toList).count .close ≤ 1
  closedLate : Call.close ∈ answered.map Exchange.call ++ failed.toList →
    ∃ between, Part.Passed storage outlet before (survey.parts options) between ∧
      (Run.left result).calls = between.calls ++ [.close]
  -- The log is stored when the storage has been closed, or not at all.
  loggedLast :
    (∃ fault after, result = .error fault after ∧ Part.Reached storage outlet before
      (survey.parts options ++ [.asking ⟨.close, ()⟩]) result) ∨
    ∃ closed, Part.Passed storage outlet before
        (survey.parts options ++ [.asking ⟨.close, ()⟩]) closed ∧
      Part.Reached storage outlet closed (log.map Artifact.part) result

namespace InOrder
variable {storage : Storage} {outlet : Outlet} {options : ExportOptions} {before : World}
  {survey : Survey} {log : List Artifact} {answered : List Exchange} {failed : Option Call}
  {result : EStateM.Result (Fault ExportError) World Summary}

/-- By the time the storage is closed all other parts are passed. -/
theorem closed_late (proper : outlet.Proper)
    (reached : Part.Reached storage outlet before (survey.run options log) result)
    (inquiry : Inquiry storage before (survey.exchanges options) answered failed result)
    (closed : Call.close ∈ answered.map Exchange.call ++ failed.toList) :
    ∃ between, Part.Passed storage outlet before (survey.parts options) between ∧
      (Run.left result).calls = between.calls ++ [.close] := by
  rcases reached.split with ⟨_, _, -, early⟩ | ⟨between, passed, late⟩
  · -- a run that broke before has asked nothing else
    obtain ⟨answered', failed', same⟩ := early.inquiry proper
    have asked := List.append_cancel_left (inquiry.calls.symm.trans same.calls)
    exact absurd (same.ordered.subset (asked ▸ closed)) (survey.close_not_mem options)
  · refine ⟨between, passed, ?_⟩
    obtain ⟨answered', failed', same⟩ := late.inquiry proper
    have talks := passed.talks proper
    have calls := inquiry.calls.symm.trans same.calls
    rw [talks.calls, List.append_assoc] at calls
    rw [List.append_cancel_left calls, List.mem_append] at closed
    have asked := closed.resolve_left (survey.close_not_mem options)
    -- nothing is asked for the log, so closing is the only question left
    have left : (Part.asking ⟨.close, ()⟩ :: log.map Artifact.part).flatMap Part.exchanges =
        [⟨.close, ()⟩] := by
      simp [List.flatMap_map, Artifact.part, Part.exchanges]
    have ordered := same.ordered
    rw [left] at ordered
    rcases List.prefix_cons_iff.mp ordered with none | ⟨rest, one, more⟩
    · rw [none] at asked
      cases asked
    · rw [same.calls, one, List.prefix_nil.mp more]

theorem of_reached (proper : outlet.Proper)
    (counted : options.metadata = true → survey.counts.map Prod.fst = survey.names)
    (reached : Part.Reached storage outlet before (survey.run options log) result) :
    ∃ answered failed,
      InOrder storage outlet options before survey log answered failed result := by
  obtain ⟨answered, failed, inquiry⟩ := reached.inquiry proper
  rw [survey.exchanges_run] at inquiry
  refine ⟨answered, failed, counted, reached, inquiry, ?_, closed_late proper reached inquiry, ?_⟩
  · refine (inquiry.ordered.sublist.count_le _).trans ?_
    rw [← survey.exchanges_parts, List.map_append, List.count_append,
      List.count_eq_zero_of_not_mem (survey.close_not_mem options)]
    decide
  · have last : survey.run options log =
        (survey.parts options ++ [.asking ⟨.close, ()⟩]) ++ log.map Artifact.part := by
      simp [Survey.run]
    exact (last ▸ reached).split

end InOrder

/-- A run is refused before it does anything if it is to store a log that nobody captured. Else
it goes in order, however it ends. -/
def GoesInOrder (storage : Storage) (outlet : Outlet) (options : ExportOptions)
    (capture : Option Log.Capture) (before : World)
    (result : EStateM.Result (Fault ExportError) World Summary) : Prop :=
  (options.log = true → capture = none → ∃ error, result = .error (.raised error) before) ∧
  ((options.log = true → capture.isSome = true) →
    ∃ (survey : Survey) (seen : List Log.Event) (answered : List Exchange) (failed : Option Call),
      InOrder storage outlet options before survey (logArtifacts options capture seen) answered
        failed result)

/-- Every run goes in order, to whatever outlet, and so to every target: what it asks is the
front part of what its survey asks, and all of that if it succeeds; it asks nothing after a
failure; it closes the storage at most once, when the data is stored, and stores the log last. -/
theorem exportTo_inOrder (storage : Storage) (options : ExportOptions)
    (capture : Option Log.Capture) (world : World) :
    (∀ outlet : Outlet, outlet.Proper → GoesInOrder storage outlet options capture world
      (exportTo storage outlet options capture world)) ∧
    ∀ target : Target, GoesInOrder storage target.outlet options capture world
      (exportDatabase storage target options capture world) := by
  have any : ∀ outlet : Outlet, outlet.Proper → GoesInOrder storage outlet options capture world
      (exportTo storage outlet options capture world) := by
    intro outlet proper
    unfold exportTo
    refine ⟨fun selected none => ?_, fun captured => ?_⟩
    · rw [if_pos (by simp [selected, none])]
      exact ⟨_, rfl⟩
    · rw [if_neg (by simpa [Option.isSome_iff_ne_none] using captured)]
      obtain ⟨survey, seen, counted, reached⟩ :=
        Run.exportAll_reached storage proper options capture world
      obtain ⟨answered, failed, ordered⟩ := InOrder.of_reached proper counted reached
      exact ⟨survey, seen, answered, failed, ordered⟩
  exact ⟨any, fun target => any _ target.outlet_proper⟩

/-- An outlet whose sinks are full after some bytes. -/
def cramped : Outlet where
  openSink _ _ := pure (.bounded (some 4) false [])
  commit _ := pure ()

theorem cramped_proper : cramped.Proper where
  openSink _ _ := ⟨fun h => by cases h; exact ⟨rfl, List.prefix_refl _⟩, fun h => by cases h⟩
  commit _ := ⟨fun h => by cases h; exact ⟨rfl, List.prefix_refl _⟩, fun h => by cases h⟩
  ready h := by
    cases h
    trivial

theorem exportTo_inOrder_cramped :
    (∃ fault after, exportTo oneTable.storage cramped prefixed (some (.fixed [3])) usedDirectory =
      .error fault after ∧ after.calls = [.listTables]) ∧
    GoesInOrder oneTable.storage cramped prefixed (some (.fixed [3])) usedDirectory
      (exportTo oneTable.storage cramped prefixed (some (.fixed [3])) usedDirectory) := by
  refine ⟨?_, (exportTo_inOrder oneTable.storage prefixed (some (.fixed [3])) usedDirectory).1 cramped
    cramped_proper⟩
  have stopped : fails (fun _ after => decide (after.calls = [.listTables]))
      (exportTo oneTable.storage cramped prefixed (some (.fixed [3])) usedDirectory) = true := by
    cbv
  obtain ⟨fault, after, ran, calls⟩ := error_of_fails stopped
  exact ⟨fault, after, ran, by simpa using calls⟩

end TableExport
