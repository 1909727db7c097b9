import TableExport.Proofs.Export.Runs

/-!
# Runs that fail

A run that fails has completed the artifacts of all parts in front of the one that broke, and
no other. In a bucket nothing more is left of it. In a directory the artifact of that part may
be left unfinished: its file then holds what was written before the question that was not
answered.
-/
namespace TableExport

/-! ## Parts that break -/

/-- Giving up after a failure leaves no byte in the buffer, so the file gets all of them. -/
theorem Output.leave_within {before left : Output} {fault : Fault ExportError}
    (within : Within before left) :
    FileSystem.SameBut before.sink.place? before.world.files (left.leave fault).files ∧
      (left.leave fault).objects = before.world.objects := by
  cases fault with
  | crash => exact ⟨within.files, within.objects⟩
  | raised error =>
    exact ⟨within.files.trans (within.place? ▸ left.sink.release_sameBut left.world.files),
      within.objects⟩

namespace Part
variable {storage : Storage} {part : Part} {a b : World}

/-- Nothing that is not complete gets into a bucket. -/
theorem Breaks.bucket {store : Bucket} {service : ObjectService} {fault : Fault ExportError}
    (breaks : Breaks storage (Target.bucket store service).outlet part a fault b) :
    FileSystem.SameBut none a.files b.files ∧ b.objects = a.objects := by
  cases breaks with
  | unanswered failed keeps => exact ⟨keeps.files ▸ .refl .., keeps.objects⟩
  | unopened opening =>
    obtain ⟨path, directory, -⟩ := Target.openSink_error opening
    cases directory
  | unwritten opening effect breaks held =>
    obtain ⟨rfl, rfl⟩ := Target.openSink_ok opening
    exact Output.leave_within (effect.toWithin.trans breaks.within)
  | uncommitted opening effect committing =>
    obtain ⟨rfl, rfl⟩ := Target.openSink_ok opening
    rw [(Target.commit_error committing).2]
    exact ⟨effect.files, effect.objects⟩

/-- In a directory a part breaks when it is asking, when its file is opened, or while it is
written; then the file holds what was written up to the question without an answer. -/
theorem Breaks.directory {path : String} {error : ExportError}
    (breaks : Breaks storage (Target.directory path).outlet part a (.raised error) b) :
    (∃ exchange, part = .asking exchange ∧ Keeps a b) ∨
    (∃ name contentType items, part = .storing name contentType items ∧
      (Target.directory path).outlet.openSink name contentType a = .error (.raised error) b ∧
      b = { a with files := a.files.withParents (FileSystem.join path name) }) ∨
    ∃ name contentType front exchange back between,
      part = .storing name contentType (front ++ .asked exchange :: back) ∧
      Talks storage a (Item.exchanges front) between ∧
      Unanswered storage between exchange.call (.raised error) b ∧
      (Target.directory path).Stored a ⟨name, contentType, Item.body front⟩ b := by
  cases breaks with
  | @unanswered _ _ exchange _ failed keeps => exact .inl ⟨exchange, rfl, keeps⟩
  | @unopened _ _ name contentType items _ opening =>
    obtain ⟨_, ⟨⟩, made, -⟩ := Target.openSink_error opening
    exact .inr (.inl ⟨name, contentType, items, rfl, opening, made⟩)
  | @unwritten _ opened name contentType done rest item _ sink between left opening effect breaks
      held =>
    have fresh := Target.openSink_ok opening
    have empty := fresh.ready.2
    obtain ⟨place, files, created, rfl, rfl⟩ := fresh
    obtain ⟨exchange, rfl, failed⟩ := breaks.asked (effect.willing trivial)
    have bytes := (breaks.kept (effect.willing trivial)).trans effect.bytes
    have within := effect.toWithin.trans breaks.within
    have full := held nofun
    obtain ⟨held', sink, world⟩ := left
    obtain ⟨offset, pending, rfl⟩ := Sink.file_of_origin within.origin
    obtain rfl : held' = [] := full
    refine .inr (.inr ⟨name, contentType, done, exchange, rest, between.world, rfl, ?_, ?_, ?_⟩)
    · have opened : Talks storage a [] { a with files := files } :=
        .silent storage rfl (List.prefix_refl _)
      exact opened.trans effect.talks
    · exact ⟨failed.failed, failed.calls, failed.log⟩
    · -- the file of the sink gets all that was written, and the buffer holds none of it
      have written : (Sink.file place (FileSystem.join path name) offset pending).taken world.files =
          Item.body done := by
        simpa [Output.bytes, empty] using bytes
      refine ⟨within.objects, place, files, created, ?_, ?_⟩
      · have same : FileSystem.SameBut (some place) files world.files := within.files
        exact same.trans (Sink.release_sameBut
          (.file place (FileSystem.join path name) offset pending) world.files)
      · rw [← written]
        exact Sink.content?_release within.ready
  | uncommitted opening effect committing =>
    -- the sink of a file can always be completed
    obtain ⟨place, files, created, rfl, rfl⟩ := Target.openSink_ok opening
    obtain ⟨offset, pending, rfl⟩ := Sink.file_of_origin effect.origin
    cases committing

end Part

/-! ## What was completed -/

/-- A run that failed in one of its parts, after those in front of it were passed. -/
structure BrokenOff (storage : Storage) (outlet : Outlet) (options : ExportOptions)
    (capture : Option Log.Capture) (before : World) (survey : Survey) (done : List Part)
    (part : Part) (between : World) (fault : Fault ExportError) (after : World) : Prop where
  captured : options.log = true → capture.isSome = true
  counted : options.metadata = true → survey.counts.map Prod.fst = survey.names
  inOrder : ∃ seen later,
    survey.run options (logArtifacts options capture seen) = done ++ part :: later
  passed : Part.Passed storage outlet before done between
  breaks : Part.Breaks storage outlet part between fault after
  -- All that the completed artifacts show was answered.
  answered : storage.Gives before.calls (done.flatMap Part.exchanges)
  completed : done.flatMap Part.artifacts <+: survey.artifacts options

/-- The log is stored in one step at the end, so a run that fails has not completed it. -/
theorem Survey.completed_of_run {survey : Survey} {options : ExportOptions}
    {capture : Option Log.Capture} {seen : List Log.Event} {done later : List Part} {part : Part}
    (split : survey.run options (logArtifacts options capture seen) = done ++ part :: later) :
    done.flatMap Part.artifacts <+: survey.artifacts options := by
  have short : (logArtifacts options capture seen).length ≤ 1 := by
    unfold logArtifacts
    split <;> simp
  have data : done <+: survey.parts options ++ [.asking ⟨.close, ()⟩] := by
    have all : survey.run options (logArtifacts options capture seen) =
        (survey.parts options ++ [.asking ⟨.close, ()⟩]) ++
          (logArtifacts options capture seen).map Artifact.part := by
      simp [Survey.run]
    refine List.prefix_of_prefix_length_le (split ▸ List.prefix_append ..)
      (all ▸ List.prefix_append ..) ?_
    have length := congrArg List.length (all.symm.trans split)
    simp only [List.length_append, List.length_map, List.length_cons] at length ⊢
    omega
  obtain ⟨rest, same⟩ := data
  have artifacts := congrArg (List.flatMap Part.artifacts) same
  rw [List.flatMap_append, List.flatMap_append, survey.artifacts_parts] at artifacts
  refine ⟨rest.flatMap Part.artifacts, artifacts.trans ?_⟩
  simp [Part.artifacts]

theorem exportDatabase_brokenOff {storage : Storage} {target : Target} {options : ExportOptions}
    {capture : Option Log.Capture} {fault : Fault ExportError} {world world' : World}
    (h : exportDatabase storage target options capture world = .error fault world') :
    (options.log = true ∧ capture = none ∧ world' = world) ∨
      ∃ survey done part between, BrokenOff storage target.outlet options capture world survey done
        part between fault world' := by
  unfold exportDatabase exportTo at h
  split at h
  next uncaptured =>
    cases h
    exact .inl ⟨by simp_all, by simp_all, rfl⟩
  next captured =>
    obtain ⟨survey, seen, counted, reached⟩ :=
      Run.exportAll_reached storage target.outlet_proper options capture world
    rw [h] at reached
    cases reached with
    | broken split passed breaks =>
      exact .inr ⟨survey, _, _, _, by simpa [Option.isSome_iff_ne_none] using captured, counted,
        ⟨seen, _, split⟩, passed, breaks, (passed.talks target.outlet_proper).gives,
        Survey.completed_of_run split⟩

namespace BrokenOff
variable {storage : Storage} {outlet : Outlet} {options : ExportOptions}
  {capture : Option Log.Capture} {before between after : World} {survey : Survey}
  {done : List Part} {part : Part} {fault : Fault ExportError}

/-- The artifact of the part that broke comes next after those that were completed. -/
theorem names (broken : BrokenOff storage outlet options capture before survey done part between
    fault after) :
    (done.flatMap Part.artifacts).map Artifact.name ++ part.artifacts.map Artifact.name <+:
      artifactNames options survey.names := by
  obtain ⟨seen, later, split⟩ := broken.inOrder
  rw [← survey.map_name_artifacts seen broken.captured, ← survey.artifacts_run, split,
    List.flatMap_append, List.flatMap_cons, List.map_append, List.map_append, ← List.append_assoc]
  exact List.prefix_append ..

theorem take_completed (broken : BrokenOff storage outlet options capture before survey done part
    between fault after) :
    done.flatMap Part.artifacts =
      (survey.artifacts options).take (done.flatMap Part.artifacts).length :=
  List.prefix_iff_eq_take.mp broken.completed

theorem take_names (broken : BrokenOff storage outlet options capture before survey done part
    between fault after) :
    (done.flatMap Part.artifacts).map Artifact.name =
      (artifactNames options survey.names).take (done.flatMap Part.artifacts).length := by
  have front := List.prefix_iff_eq_take.mp ((List.prefix_append ..).trans broken.names)
  rwa [List.length_map] at front

/-- At most one more name follows those of the completed artifacts. -/
theorem names_take (broken : BrokenOff storage outlet options capture before survey done part
    between fault after) :
    (done.flatMap Part.artifacts).map Artifact.name ++ part.artifacts.map Artifact.name <+:
      (artifactNames options survey.names).take ((done.flatMap Part.artifacts).length + 1) := by
  refine List.prefix_take_iff.mpr ⟨broken.names, ?_⟩
  cases part <;> simp [Part.artifacts]

theorem names_drop (broken : BrokenOff storage outlet options capture before survey done part
    between fault after) :
    part.artifacts.map Artifact.name <+:
      (artifactNames options survey.names).drop (done.flatMap Part.artifacts).length := by
  have dropped := broken.names.drop ((done.flatMap Part.artifacts).map Artifact.name).length
  rw [List.drop_left, List.length_map] at dropped
  exact dropped

/-- The tables were listed, if the run came further than that. -/
theorem listed (broken : BrokenOff storage outlet options capture before survey done part between
    fault after) :
    done = [] ∧ part = .asking ⟨.listTables, survey.names⟩ ∨
      (storage.reply before.calls .listTables).outcome = .ok survey.names := by
  obtain ⟨seen, later, split⟩ := broken.inOrder
  cases done with
  | nil =>
    cases split
    exact .inl ⟨rfl, rfl⟩
  | cons first done =>
    obtain ⟨rfl, -⟩ := List.cons.inj split
    exact .inr broken.answered.1

/-- A target that accepts the names of the listed tables accepts all names of the run so far. -/
theorem accepted {target : Target}
    (broken : BrokenOff storage outlet options capture before survey done part between fault after)
    (accepts : ∀ listed, (storage.reply before.calls .listTables).outcome = .ok listed →
      ∀ table ∈ listed, target.Accepts (tableArtifact options.tablePrefix table)) :
    ∀ artifact ∈ done.flatMap Part.artifacts ++ part.artifacts, target.Accepts artifact.name := by
  intro artifact member
  rcases broken.listed with ⟨rfl, rfl⟩ | listed
  · cases member
  · apply accepts_artifactNames (accepts _ listed)
    apply broken.names.subset
    rw [← List.map_append]
    exact List.mem_map_of_mem member

end BrokenOff

/-! ## Buckets -/

/-- A run into a bucket that fails has uploaded the artifacts that it completed, and nothing
else: the bucket has them over what it had before, and no object of the artifact that broke, or
of a later one, was touched. -/
theorem exportDatabase_error_bucket {storage : Storage} {store : Bucket} {service : ObjectService}
    {options : ExportOptions} {capture : Option Log.Capture} {fault : Fault ExportError}
    {world world' : World}
    (h : exportDatabase storage (.bucket store service) options capture world =
      .error fault world') :
    (options.log = true ∧ capture = none ∧ world' = world) ∨
    ∃ (survey : Survey) (done : List Part) (part : Part) (between : World) (k : Nat),
      BrokenOff storage (Target.bucket store service).outlet options capture world survey done part
        between fault world' ∧
      done.flatMap Part.artifacts = (survey.artifacts options).take k ∧
      ((survey.artifacts options).take k).map Artifact.name =
        (artifactNames options survey.names).take k ∧
      (Target.bucket store service).Overlaid world ((survey.artifacts options).take k) world' ∧
      world'.objects = world.objects ++
        ((survey.artifacts options).take k).map (Artifact.upload store) := by
  rcases exportDatabase_brokenOff h with refused | ⟨survey, done, part, between, broken⟩
  · exact .inl refused
  have writes := broken.passed.writes
  obtain ⟨files, objects⟩ := broken.breaks.bucket
  refine .inr ⟨survey, done, part, between, _, broken, broken.take_completed, ?_, ?_, ?_⟩
  · rw [← broken.take_completed]
    exact broken.take_names
  all_goals rw [← broken.take_completed]
  · have overlaid := (writes.overlaid trivial fun _ _ => trivial).trans
      (show (Target.bucket store service).Overlaid between [] world' from
        ⟨files, fun bucket => by simp [World.object?_congr objects, overlay]⟩)
    rwa [List.append_nil] at overlaid
  · rw [objects, writes.objects]

/-- A table whose rows cannot be read. -/
def unreadable : Script where
  tables := [{ name := "apps", columns := [⟨"id", "INT4"⟩], rows := [], count := 1
               rowsFailure := some (.query "rows" .refused) }]
  listed := ["apps"]

/-- A bucket that takes all uploads. -/
def openBucket : Target := .bucket ⟨"store", "host"⟩ ⟨fun _ => .present, fun _ _ => true⟩

def usedBucket : World where
  files.nodes := []
  objects := [⟨"store", "apps.csv", .csv, [1]⟩]

/-- The object from before is kept when its table cannot be read. -/
theorem exportDatabase_error_bucket_unreadable :
    ∃ fault after, exportDatabase unreadable.storage openBucket {} none usedBucket =
        .error fault after ∧
      after.object? "store" "apps.csv" = some (.csv, [1]) ∧
      ∃ (survey : Survey) (k : Nat),
        openBucket.Overlaid usedBucket ((survey.artifacts {}).take k) after := by
  have stopped : fails (fun _ after => decide (after.object? "store" "apps.csv" = some (.csv, [1])))
      (exportDatabase unreadable.storage openBucket {} none usedBucket) = true := by
    cbv
  obtain ⟨fault, after, ran, kept⟩ := error_of_fails stopped
  obtain ⟨selected, -⟩ | ⟨survey, -, -, -, k, -, -, -, overlaid, -⟩ :=
    exportDatabase_error_bucket ran
  · cases selected
  · exact ⟨fault, after, ran, by simpa using kept, survey, k, overlaid⟩

/-! ## Directories -/

/-- What is in the file of an artifact whose writing ends with a question without an answer. -/
inductive Remains (survey : Survey) (options : ExportOptions) : Call → Artifact → Prop
  | undescribed {data : TableData} (listed : data ∈ survey.tables) :
    Remains survey options (.describe data.table)
      (.csv (tableArtifact options.tablePrefix data.table) [])
  | unread {data : TableData} (listed : data ∈ survey.tables) :
    Remains survey options (.readRows data.table data.columns options.limit)
      (.csv (tableArtifact options.tablePrefix data.table) [data.columns.map Column.name])
  | uncounted {counted later : List (TableName × Int)} {table : TableName} {count : Int}
    (split : survey.counts = counted ++ (table, count) :: later) :
    Remains survey options (.countRecords table)
      (.csv metadataArtifact (metadataHeader :: countRecords counted))
  | unruled : Remains survey options .disabledRules (.csv disabledRulesArtifact [])

namespace Item
variable {front back : List Item} {exchange : Exchange}

/-- No question is asked while records are written. -/
theorem not_asked_of_listing {header : List String} {rows : List (List String)} :
    listingItems header rows ≠ front ++ .asked exchange :: back := by
  intro split
  have member : Item.asked exchange ∈ listingItems header rows := by simp [split]
  simp [listingItems, record] at member

theorem split_table {name : TableName} {limit : Option UInt32} {columns : List Column}
    {rows : List Row} (split : tableItems name limit columns rows = front ++ .asked exchange :: back) :
    exchange.call = .describe name ∧ front = [] ∨
      exchange.call = .readRows name columns limit ∧
        body front = Csv.document [columns.map Column.name] := by
  match front, split with
  | [], split =>
    cases split
    exact .inl ⟨rfl, rfl⟩
  | [_], split => cases split
  | [_, _], split =>
    cases split
    exact .inr ⟨rfl, by simp [Csv.document_cons]⟩
  | first :: second :: third :: front, split =>
    have rest : (rowRecords columns rows).map record ++ [.flushed] =
        front ++ .asked exchange :: back := by
      simp only [tableItems, List.cons_append, List.cons.injEq] at split
      exact split.2.2.2
    have member : Item.asked exchange ∈ (rowRecords columns rows).map record ++ [.flushed] := by
      simp [rest]
    simp [record] at member

/-- Each table is counted when the counts of those before it have been written. -/
theorem split_counts {counts : List (TableName × Int)}
    (split : countItems counts ++ [.flushed] = front ++ .asked exchange :: back) :
    ∃ counted table count later, counts = counted ++ (table, count) :: later ∧
      exchange.call = .countRecords table ∧ front = countItems counted := by
  induction counts generalizing front with
  | nil =>
    have member : Item.asked exchange ∈ [Item.flushed] := by
      rw [show [Item.flushed] = front ++ .asked exchange :: back from split]
      simp
    simp at member
  | cons entry rest ih =>
    match front, split with
    | [], split =>
      cases split
      exact ⟨[], entry.1, entry.2, rest, rfl, rfl, rfl⟩
    | [_], split => cases split
    | first :: second :: front, split =>
      simp only [countItems, List.flatMap_cons, List.cons_append, List.nil_append,
        List.cons.injEq] at split
      obtain ⟨rfl, rfl, split⟩ := split
      obtain ⟨counted, table, count, later, rfl, asked, rfl⟩ := ih split
      exact ⟨entry :: counted, table, count, later, rfl, asked, rfl⟩

theorem split_rules {rules : List DisabledRule}
    (split : ruleItems rules = front ++ .asked exchange :: back) :
    exchange.call = .disabledRules ∧ front = [] := by
  cases front with
  | nil =>
    cases split
    exact ⟨rfl, rfl⟩
  | cons first front => exact absurd (List.cons.inj split).2 not_asked_of_listing

end Item

/-- Of all parts of a run, those that ask while they write leave one of four remains. -/
theorem Survey.remains {survey : Survey} {options : ExportOptions} {log : List Artifact}
    {name : String} {contentType : ContentType} {front back : List Item} {exchange : Exchange}
    (member : Part.storing name contentType (front ++ .asked exchange :: back) ∈
      survey.run options log) :
    Remains survey options exchange.call ⟨name, contentType, Item.body front⟩ := by
  simp only [run, parts, List.mem_append, List.mem_cons, List.mem_map, List.mem_ite_nil_right,
    List.not_mem_nil, or_false, reduceCtorEq, false_or] at member
  rcases member with (((names | ⟨data, listed, same⟩) | ⟨-, same⟩) | ⟨-, same⟩) | ⟨artifact, -, same⟩
  · obtain ⟨-, -, items⟩ := Part.storing.inj names
    exact absurd items.symm Item.not_asked_of_listing
  · obtain ⟨rfl, rfl, items⟩ := Part.storing.inj same
    rcases Item.split_table items with ⟨asked, rfl⟩ | ⟨asked, written⟩
    · rw [asked]
      exact .undescribed listed
    · rw [asked, written]
      exact .unread listed
  · obtain ⟨rfl, rfl, items⟩ := Part.storing.inj same
    cases front with
    | nil => cases items
    | cons first front =>
      obtain ⟨rfl, rest⟩ := List.cons.inj items
      obtain ⟨counted, table, count, later, split, asked, rfl⟩ := Item.split_counts rest.symm
      have written : Item.body (.record metadataHeader :: countItems counted) =
          Csv.document (metadataHeader :: countRecords counted) := by
        simp [Item.body_counts, Csv.document_cons]
      rw [asked, written]
      exact .uncounted split
  · obtain ⟨rfl, rfl, items⟩ := Part.storing.inj same
    obtain ⟨asked, rfl⟩ := Item.split_rules items.symm
    rw [asked]
    exact .unruled
  · obtain ⟨-, -, items⟩ := Part.storing.inj same
    cases front with
    | nil => cases items
    | cons first front =>
      have none := (List.cons.inj items).2
      cases front <;> cases none

/-- What a directory holds of the part that broke. -/
inductive Leftover (storage : Storage) (path : String) (options : ExportOptions) (before : World)
    (survey : Survey) (between : World) (error : ExportError) (after : World) :
    Part → List Artifact → Prop
  -- The tables were not listed or the storage was not closed, so nothing was being written.
  | asking (exchange : Exchange) : Leftover storage path options before survey between error after
      (.asking exchange) []
  | unopened {name : String} {contentType : ContentType} {items : List Item}
    (opening : (Target.directory path).outlet.openSink name contentType between =
      .error (.raised error) after) :
    Leftover storage path options before survey between error after
      (.storing name contentType items) []
  | unfinished {artifact : Artifact} {items : List Item} {answered more : List Exchange}
    {exchange : Exchange} (order : survey.exchanges options = answered ++ exchange :: more)
    (gives : storage.Gives before.calls answered)
    (failed : (storage.reply (before.calls ++ answered.map Exchange.call) exchange.call).outcome =
      .error (.raised error))
    (remains : Remains survey options exchange.call artifact) :
    Leftover storage path options before survey between error after
      (.storing artifact.name artifact.contentType items) [artifact]

namespace BrokenOff
variable {storage : Storage} {path : String} {options : ExportOptions}
  {capture : Option Log.Capture} {before between after : World} {survey : Survey}
  {done : List Part} {part : Part} {error : ExportError}

/-- What is left of a part in a directory is laid over what was there before it; besides, only
directories on the way to its artifact may have been made. -/
theorem leftover
    (broken : BrokenOff storage (Target.directory path).outlet options capture before survey done
      part between (.raised error) after) :
    ∃ left, Leftover storage path options before survey between error after part left ∧
      left.map Artifact.name <+: part.artifacts.map Artifact.name ∧
      ((Target.directory path).Writes between left after ∨
        left = [] ∧ ∃ artifact ∈ part.artifacts, after = { between with
          files := between.files.withParents (FileSystem.join path artifact.name) }) := by
  have reached := broken.passed.talks (Target.directory path).outlet_proper
  obtain ⟨seen, later, split⟩ := broken.inOrder
  rcases broken.breaks.directory with ⟨exchange, rfl, keeps⟩ |
    ⟨name, contentType, items, rfl, opening, made⟩ |
    ⟨name, contentType, front, exchange, back, last, rfl, talks, failed, stored⟩
  · exact ⟨[], .asking exchange, List.nil_prefix, .inl (.idle keeps.files keeps.objects)⟩
  · exact ⟨[], .unopened opening, List.nil_prefix, .inr ⟨rfl, _, List.mem_singleton_self _, made⟩⟩
  · have all := reached.trans talks
    have order : survey.exchanges options =
        (done.flatMap Part.exchanges ++ Item.exchanges front) ++
          exchange :: (Item.exchanges back ++ later.flatMap Part.exchanges) := by
      rw [← survey.exchanges_run options (logArtifacts options capture seen), split]
      simp [Part.exchanges]
    have member : Part.storing name contentType (front ++ .asked exchange :: back) ∈
        survey.run options (logArtifacts options capture seen) := by simp [split]
    have unfinished := @Leftover.unfinished storage path options before survey between error after
      ⟨name, contentType, Item.body front⟩ (front ++ .asked exchange :: back) _ _ exchange order
      all.gives (all.calls ▸ failed.failed) (Survey.remains member)
    exact ⟨_, unfinished, by simp [Part.artifacts], .inl (.store stored)⟩

/-- The names of the run so far are the first ones and at most one more. -/
theorem steps_mem
    (broken : BrokenOff storage (Target.directory path).outlet options capture before survey done
      part between (.raised error) after) {artifact : Artifact}
    (member : artifact ∈ done.flatMap Part.artifacts ++ part.artifacts) :
    FileSystem.steps artifact.name ∈ ((artifactNames options survey.names).take
      ((done.flatMap Part.artifacts).length + 1)).map FileSystem.steps := by
  apply List.mem_map_of_mem
  apply broken.names_take.subset
  rw [← List.map_append]
  exact List.mem_map_of_mem member

/-- What was written of the part that broke lies over what was completed. -/
theorem spread_written
    (broken : BrokenOff storage (Target.directory path).outlet options capture before survey done
      part between (.raised error) after)
    (here : (Target.directory path).Exists before.files)
    (plain : ∀ artifact ∈ done.flatMap Part.artifacts ++ part.artifacts,
      FileSystem.IsPlain artifact.name) {left : List Artifact}
    (named : left.map Artifact.name <+: part.artifacts.map Artifact.name)
    (writes : (Target.directory path).Writes between left after) :
    after.objects = before.objects ∧ ∃ base, before.files.resolve path = .ok base ∧
      before.files.Spread base (((artifactNames options survey.names).take
          ((done.flatMap Part.artifacts).length + 1)).map FileSystem.steps)
        ((done.flatMap Part.artifacts ++ left).map fun artifact =>
          (FileSystem.steps artifact.name, artifact.body)) after.files := by
  -- the leftover has the name of the artifact that was to be written
  have same : ∀ artifact ∈ done.flatMap Part.artifacts ++ left,
      ∃ planned ∈ done.flatMap Part.artifacts ++ part.artifacts, planned.name = artifact.name := by
    intro artifact member
    rcases List.mem_append.mp member with early | late
    · exact ⟨artifact, List.mem_append_left _ early, rfl⟩
    · obtain ⟨planned, found, name⟩ := List.mem_map.mp (named.subset (List.mem_map_of_mem late))
      exact ⟨planned, List.mem_append_right _ found, name⟩
  obtain ⟨objects, base, resolved, below⟩ :=
    (broken.passed.writes.trans writes).overlaid here fun artifact member => by
      obtain ⟨planned, found, name⟩ := same artifact member
      exact name ▸ plain planned found
  refine ⟨objects, base, resolved, .of_overlaid below fun write member => ?_⟩
  obtain ⟨artifact, laid, rfl⟩ := List.mem_map.mp member
  obtain ⟨planned, found, name⟩ := same artifact laid
  exact name ▸ broken.steps_mem found

/-- If the file of the part that broke was not opened, nothing but its directories can be new. -/
theorem spread_unopened
    (broken : BrokenOff storage (Target.directory path).outlet options capture before survey done
      part between (.raised error) after)
    (here : (Target.directory path).Exists before.files)
    (plain : ∀ artifact ∈ done.flatMap Part.artifacts ++ part.artifacts,
      FileSystem.IsPlain artifact.name) {artifact : Artifact} (member : artifact ∈ part.artifacts)
    (made : after = { between with
      files := between.files.withParents (FileSystem.join path artifact.name) }) :
    after.objects = before.objects ∧ ∃ base, before.files.resolve path = .ok base ∧
      before.files.Spread base (((artifactNames options survey.names).take
          ((done.flatMap Part.artifacts).length + 1)).map FileSystem.steps)
        ((done.flatMap Part.artifacts).map fun artifact =>
          (FileSystem.steps artifact.name, artifact.body)) after.files := by
  subst made
  have ready := broken.passed.writes.overlaid here fun artifact member =>
    plain artifact (List.mem_append_left _ member)
  obtain ⟨base, resolved, directory⟩ := Target.base_of_exists (ready.exists_after here)
  obtain ⟨objects, base', resolved', below⟩ := ready
  obtain rfl : base' = base := by
    simpa using (FileSystem.resolve_grows below.grows resolved').symm.trans resolved
  obtain ⟨front, last, name, deepens⟩ := FileSystem.withParents_join resolved directory
    (plain artifact (List.mem_append_right _ member))
  have asked := broken.steps_mem (List.mem_append_right _ member)
  refine ⟨objects, base', resolved', ?_⟩
  refine (FileSystem.Spread.of_overlaid below fun write laid => ?_).deepens deepens (name ▸ asked)
  obtain ⟨planned, found, rfl⟩ := List.mem_map.mp laid
  exact broken.steps_mem (List.mem_append_left _ found)

end BrokenOff

/-- A run into a directory that fails leaves the artifacts that it completed, and at most one
more: that of the part that broke, if its file had been opened. Its content from before is gone
then, and it holds what was written before the question that was not answered. No other file
is changed. -/
theorem exportDatabase_error_directory {storage : Storage} {path : String} {options : ExportOptions}
    {capture : Option Log.Capture} {error : ExportError} {world world' : World}
    (here : (Target.directory path).Exists world.files)
    (accepts : ∀ listed, (storage.reply world.calls .listTables).outcome = .ok listed →
      ∀ table ∈ listed, FileSystem.IsPlain (tableArtifact options.tablePrefix table))
    (h : exportDatabase storage (.directory path) options capture world =
      .error (.raised error) world') :
    (options.log = true ∧ capture = none ∧ world' = world) ∨
    ∃ (survey : Survey) (done : List Part) (part : Part) (between : World) (k : Nat)
      (left : List Artifact),
      BrokenOff storage (Target.directory path).outlet options capture world survey done part
        between (.raised error) world' ∧
      done.flatMap Part.artifacts = (survey.artifacts options).take k ∧
      ((survey.artifacts options).take k).map Artifact.name =
        (artifactNames options survey.names).take k ∧
      Leftover storage path options world survey between error world' part left ∧
      left.map Artifact.name <+: (artifactNames options survey.names).drop k ∧
      world'.objects = world.objects ∧
      ∃ base, world.files.resolve path = .ok base ∧
        world.files.Spread base (((artifactNames options survey.names).take (k + 1)).map FileSystem.steps)
          (((survey.artifacts options).take k ++ left).map fun artifact =>
            (FileSystem.steps artifact.name, artifact.body)) world'.files := by
  rcases exportDatabase_brokenOff h with refused | ⟨survey, done, part, between, broken⟩
  · exact .inl refused
  obtain ⟨left, leftover, named, after⟩ := broken.leftover
  have plain : ∀ artifact ∈ done.flatMap Part.artifacts ++ part.artifacts,
      (Target.directory path).Accepts artifact.name := broken.accepted accepts
  refine .inr ⟨survey, done, part, between, _, left, broken, broken.take_completed, ?_, leftover,
    named.trans broken.names_drop, ?_⟩
  · rw [← broken.take_completed]
    exact broken.take_names
  · rw [← broken.take_completed]
    rcases after with writes | ⟨rfl, artifact, member, made⟩
    · exact broken.spread_written here plain named writes
    · rw [List.append_nil]
      exact broken.spread_unopened here plain member made

/-- Whether a run failed with an error that it reports. -/
def Fault.isRaised {ε : Type} : Fault ε → Bool
  | .crash => false
  | .raised _ => true

/-- A table that cannot be read leaves its header. -/
theorem exportDatabase_error_directory_unreadable :
    ∃ error after, exportDatabase unreadable.storage (.directory "/out") {} none usedDirectory =
        .error (.raised error) after ∧
      after.files.read? "/out/apps.csv" = some (Csv.document [["id"]]) ∧
      ∃ (survey : Survey) (k : Nat) (left : List Artifact),
        left.map Artifact.name <+: (artifactNames {} survey.names).drop k ∧
        ∃ base, usedDirectory.files.resolve "/out" = .ok base ∧
          usedDirectory.files.Spread base
            (((artifactNames {} survey.names).take (k + 1)).map FileSystem.steps)
            (((survey.artifacts {}).take k ++ left).map fun artifact =>
              (FileSystem.steps artifact.name, artifact.body)) after.files := by
  have stopped : fails (fun fault after => fault.isRaised &&
        decide (after.files.read? "/out/apps.csv" = some (Csv.document [["id"]])))
      (exportDatabase unreadable.storage (.directory "/out") {} none usedDirectory) = true := by
    cbv
  obtain ⟨fault, after, ran, facts⟩ := error_of_fails stopped
  have here : (Target.directory "/out").Exists usedDirectory.files := by
    unfold Target.Exists
    cbv
  have plain : ∀ listed, (unreadable.storage.reply [] .listTables).outcome = .ok listed →
      ∀ table ∈ listed, FileSystem.IsPlain (tableArtifact "" table) := by
    intro listed outcome table member
    cases outcome
    obtain rfl := List.mem_singleton.mp member
    decide
  cases fault with
  | crash => cases facts
  | raised error =>
    obtain ⟨selected, -⟩ | ⟨survey, -, -, -, k, left, -, -, -, -, named, -, spread⟩ :=
      @exportDatabase_error_directory unreadable.storage "/out" {} none error usedDirectory after here
        plain ran
    · cases selected
    · exact ⟨error, after, ran, by simpa [Fault.isRaised] using facts, survey, k, left, named, spread⟩

end TableExport
