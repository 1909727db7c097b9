import TableExport.Proofs.Export.Effects
import TableExport.Proofs.FileSystem.Opening
import TableExport.Target.Basic

/-!
# Storing artifacts

An artifact is opened, written and completed. Then its file holds what was written, or an
object of its name was uploaded; nothing else was done but to make directories for it.
-/
namespace TableExport

structure Artifact where
  name : String
  contentType : ContentType
  body : Bytes

def Artifact.upload (store : Bucket) (artifact : Artifact) : Upload :=
  ⟨store.name, artifact.name, artifact.contentType, artifact.body⟩

/-! ## Artifacts written in one step -/

theorem Run.fill_ok (storage : Storage) {name : String} {sink sink' : Sink} {bytes : Bytes}
    {world world' : World} (ready : sink.Ready world.files)
    (h : fill name sink bytes world = .ok sink' world') :
    Effect storage ⟨[], sink, world⟩ bytes [] ⟨[], sink', world'⟩ ∧ world'.log = world.log := by
  unfold fill at h
  split at h
  next taken files written =>
    cases h
    exact ⟨.ofAdvance storage (Sink.writeAll_taken ready written) (by simp), rfl⟩
  next => cases h

/-- What was taken before the sink failed is kept where it is. -/
theorem Run.fill_error {name : String} {sink : Sink} {bytes : Bytes} {fault : Fault ExportError}
    {world world' : World} (ready : sink.Ready world.files)
    (h : fill name sink bytes world = .error fault world') :
    ∃ left, Refused ⟨[], sink, world⟩ fault left ∧ left.held = [] ∧ fault ≠ .crash ∧
      world' = { left.world with files := left.sink.release left.world.files } := by
  unfold fill at h
  split at h
  next => cases h
  next taken files written =>
    cases h
    obtain ⟨n, advance, -⟩ := Sink.writeAll_advance ready written
    refine ⟨⟨[], taken, { world with files := files }⟩, ⟨.ofAdvance [] advance, rfl, ?_, _, rfl⟩,
      rfl, nofun, rfl⟩
    exact fun willing => absurd (Sink.writeAll_willing willing written) (by decide)

namespace Target

/-- One artifact was stored: its file was opened and holds its bytes, or it was uploaded. -/
def Stored (target : Target) (before : World) (artifact : Artifact) (after : World) : Prop :=
  match target with
  | .directory path =>
    after.objects = before.objects ∧
      ∃ place opened,
        (before.files.withParents (FileSystem.join path artifact.name)).create?
          (FileSystem.join path artifact.name) = some (place, opened) ∧
        FileSystem.SameBut (some place) opened after.files ∧
        after.files.content? place = some artifact.body
  | .bucket store _ =>
    FileSystem.SameBut none before.files after.files ∧
      after.objects = before.objects ++ [artifact.upload store]

/-- Some artifacts were stored in this order, and nothing else was done to the target. -/
inductive Writes (target : Target) : World → List Artifact → World → Prop
  | idle {a b : World} (files : b.files = a.files) (objects : b.objects = a.objects) :
    Writes target a [] b
  | store {a b : World} {artifact : Artifact} (stored : target.Stored a artifact b) :
    Writes target a [artifact] b
  | trans {a b c : World} {xs ys : List Artifact} (first : Writes target a xs b)
    (second : Writes target b ys c) : Writes target a (xs ++ ys) c

/-! ## Opening -/

theorem createFile_ok {path : String} {world world' : World} {sink : Sink}
    (h : createFile path world = .ok sink world') :
    ∃ place files, world.files.create? path = some (place, files) ∧
      sink = .file place path 0 [] ∧ world' = { world with files := files } := by
  obtain ⟨_, current, asked, rest⟩ := bind_ok h
  obtain ⟨rfl, rfl⟩ := get_ok asked
  cases created : current.files.create? path with
  | none =>
    simp only [created] at rest
    cases rest
  | some found =>
    simp only [created] at rest
    cases rest
    exact ⟨found.1, found.2, rfl, rfl, rfl⟩

theorem openFile_ok {path : String} {world world' : World} {sink : Sink}
    (h : openFile path world = .ok sink world') :
    ∃ place files, (world.files.withParents path).create? path = some (place, files) ∧
      sink = .file place path 0 [] ∧ world' = { world with files := files } := by
  unfold openFile at h
  unfold FileSystem.withParents
  cases parent : FileSystem.parent? path with
  | none =>
    simp only [parent] at h
    exact createFile_ok h
  | some above =>
    simp only [parent] at h
    obtain ⟨_, _, asked, made⟩ := bind_ok h
    obtain ⟨rfl, rfl⟩ := get_ok asked
    obtain ⟨_, _, stored, rest⟩ := bind_ok made
    cases stored
    split at rest
    next =>
      obtain ⟨_, _, failed, -⟩ := bind_ok rest
      cases failed
    next => exact createFile_ok rest

theorem createFile_error {path : String} {world world' : World} {fault : Fault ExportError}
    (h : createFile path world = .error fault world') :
    world' = world ∧ ∃ context, fault = .raised (.write context .refused) := by
  obtain asked | ⟨_, current, asked, rest⟩ := bind_error h
  · cases asked
  obtain ⟨rfl, rfl⟩ := get_ok asked
  cases created : current.files.create? path with
  | none =>
    simp only [created] at rest
    cases rest
    exact ⟨rfl, _, rfl⟩
  | some found =>
    simp only [created] at rest
    cases rest

/-- What cannot be opened leaves the directories that were made for it. -/
theorem openFile_error {path : String} {world world' : World} {fault : Fault ExportError}
    (h : openFile path world = .error fault world') :
    world' = { world with files := world.files.withParents path } ∧
      ∃ context, fault = .raised (.write context .refused) := by
  unfold openFile at h
  unfold FileSystem.withParents
  cases parent : FileSystem.parent? path with
  | none =>
    simp only [parent] at h
    exact createFile_error h
  | some above =>
    simp only [parent] at h
    obtain asked | ⟨_, _, asked, made⟩ := bind_error h
    · cases asked
    obtain ⟨rfl, rfl⟩ := get_ok asked
    obtain stored | ⟨_, _, stored, rest⟩ := bind_error made
    · cases stored
    cases stored
    split at rest
    next =>
      obtain failed | ⟨_, _, failed, -⟩ := bind_error rest
      · cases failed
        exact ⟨rfl, _, rfl⟩
      · cases failed
    next => exact createFile_error rest

/-- A sink is open for an artifact, and nothing is in it yet. -/
def Opened (target : Target) (name : String) (contentType : ContentType) (before : World)
    (sink : Sink) (after : World) : Prop :=
  match target with
  | .directory path =>
    ∃ place files,
      (before.files.withParents (FileSystem.join path name)).create? (FileSystem.join path name) =
        some (place, files) ∧
      sink = .file place (FileSystem.join path name) 0 [] ∧ after = { before with files := files }
  | .bucket _ _ => sink = .buffer name contentType [] ∧ after = before

theorem openSink_ok {target : Target} {name : String} {contentType : ContentType}
    {world world' : World} {sink : Sink}
    (h : target.outlet.openSink name contentType world = .ok sink world') :
    target.Opened name contentType world sink world' := by
  cases target with
  | directory path => exact openFile_ok h
  | bucket store service =>
    cases h
    exact ⟨rfl, rfl⟩

/-- Only a file can fail to open. -/
theorem openSink_error {target : Target} {name : String} {contentType : ContentType}
    {world world' : World} {fault : Fault ExportError}
    (h : target.outlet.openSink name contentType world = .error fault world') :
    ∃ path, target = .directory path ∧
      world' = { world with files := world.files.withParents (FileSystem.join path name) } ∧
      ∃ context, fault = .raised (.write context .refused) := by
  cases target with
  | directory path => exact ⟨path, rfl, openFile_error h⟩
  | bucket store service => cases h

namespace Opened
variable {target : Target} {name : String} {contentType : ContentType} {a b : World} {sink : Sink}

theorem ready (opened : target.Opened name contentType a sink b) :
    sink.Ready b.files ∧ sink.taken b.files = [] := by
  cases target with
  | directory path =>
    obtain ⟨place, files, created, rfl, rfl⟩ := opened
    obtain ⟨-, -, free, rfl⟩ := FileSystem.create?_ok created
    have empty := FileSystem.content?_opened free
    exact ⟨by simp [Sink.Ready, empty], by simp [Sink.taken, empty]⟩
  | bucket store service =>
    obtain ⟨rfl, -⟩ := opened
    exact ⟨trivial, rfl⟩

theorem silent (opened : target.Opened name contentType a sink b) :
    b.calls = a.calls ∧ b.log = a.log := by
  cases target with
  | directory path =>
    obtain ⟨place, files, -, -, rfl⟩ := opened
    exact ⟨rfl, rfl⟩
  | bucket store service =>
    obtain ⟨-, rfl⟩ := opened
    exact ⟨rfl, rfl⟩

end Opened

/-! ## Completing -/

/-- What is reported when an artifact is complete. -/
def completion (target : Target) (artifact : Artifact) : List Log.Event :=
  match target with
  | .directory path =>
    [⟨.info, Log.outputTarget, "Artifact written",
      [("file", .shown (FileSystem.join path artifact.name))]⟩]
  | .bucket store _ =>
    [Run.uploaded (artifact.upload store),
     ⟨.info, Log.outputTarget, "Artifact uploaded",
      [("object", .shown artifact.name), ("bucket", .shown store.name)]⟩]

private theorem commitFile_ok {target : Target} {place : Place} {path : String} {offset : Nat}
    {pending : Bytes} {c d : World} {done : Unit}
    (h : target.outlet.commit (.file place path offset pending) c = .ok done d) :
    d = { c with
      files := (Sink.file place path offset pending).release c.files
      log := c.log ++ [⟨.info, Log.outputTarget, "Artifact written", [("file", .shown path)]⟩] } := by
  cases h
  rfl

private theorem commitBuffer_ok {store : Bucket} {service : ObjectService} {key : String}
    {contentType : ContentType} {bytes : Bytes} {c d : World} {done : Unit}
    (h : (bucket store service).outlet.commit (.buffer key contentType bytes) c = .ok done d) :
    d = { c with
      attempts := c.attempts + 1
      objects := c.objects ++ [⟨store.name, key, contentType, bytes⟩]
      log := c.log ++ (bucket store service).completion ⟨key, contentType, bytes⟩ } := by
  obtain ⟨_, _, sent, reported⟩ := bind_ok h
  rw [Run.report_ok reported, Run.upload_ok sent]
  simp [completion, Artifact.upload]

theorem commit_ok {target : Target} {sink : Sink} {c d : World} {done : Unit}
    (h : target.outlet.commit sink c = .ok done d) : d.calls = c.calls ∧ c.log <+: d.log := by
  cases sink with
  | file place path offset pending =>
    rw [commitFile_ok h]
    exact ⟨rfl, List.prefix_append ..⟩
  | buffer key contentType bytes =>
    cases target with
    | directory path => cases h
    | bucket store service =>
      rw [commitBuffer_ok h]
      exact ⟨rfl, List.prefix_append ..⟩
  | bounded room flushFails bytes =>
    cases h
    exact ⟨rfl, List.prefix_refl _⟩

/-- A sink that cannot be completed was not one of a file. Nothing is stored. -/
theorem commit_error {target : Target} {sink : Sink} {c d : World} {fault : Fault ExportError}
    (h : target.outlet.commit sink c = .error fault d) :
    sink.place? = none ∧ d = { c with attempts := d.attempts } := by
  cases sink with
  | file place path offset pending => cases h
  | buffer key contentType bytes =>
    refine ⟨rfl, ?_⟩
    cases target with
    | directory path =>
      cases h
      rfl
    | bucket store service =>
      obtain sent | ⟨_, _, -, reported⟩ := bind_error h
      · exact (Run.upload_error sent).1
      · cases reported
  | bounded room flushFails bytes => cases h

/-- A sink of the target's own that cannot be completed is one of a refused upload. -/
theorem Opened.commit_error {target : Target} {name : String} {contentType : ContentType}
    {a b c d : World} {sink sink' : Sink} {fault : Fault ExportError}
    (opened : target.Opened name contentType a sink b) (origin : sink'.origin = sink.origin)
    (h : target.outlet.commit sink' c = .error fault d) :
    ∃ context, fault = .raised (.write context .refused) := by
  cases target with
  | directory path =>
    obtain ⟨place, files, -, rfl, -⟩ := opened
    obtain ⟨offset, pending, rfl⟩ := Sink.file_of_origin origin
    cases h
  | bucket store service =>
    obtain ⟨rfl, -⟩ := opened
    rw [Sink.buffer_of_origin origin c.files] at h
    obtain sent | ⟨_, _, -, reported⟩ := bind_error h
    · exact (Run.upload_error sent).2
    · cases reported

/-- An artifact that was opened, written and completed is stored as it was written. -/
theorem Opened.completed {target : Target} {storage : Storage} {name : String}
    {contentType : ContentType} {a b c d : World} {sink sink' : Sink} {data : Bytes}
    {exchanges : List Exchange} {done : Unit}
    (opened : target.Opened name contentType a sink b)
    (effect : Effect storage ⟨[], sink, b⟩ data exchanges ⟨[], sink', c⟩)
    (h : target.outlet.commit sink' c = .ok done d) :
    target.Stored a ⟨name, contentType, data⟩ d ∧ Talks storage a exchanges d ∧
      d.log = c.log ++ target.completion ⟨name, contentType, data⟩ := by
  have bytes : sink'.taken c.files = data := by
    simpa [Output.bytes, opened.ready.2] using effect.bytes
  have opening : Talks storage a [] b :=
    .silent storage opened.silent.1 (opened.silent.2 ▸ List.prefix_refl _)
  have talks := opening.trans effect.talks
  rw [List.nil_append] at talks
  cases target with
  | directory path =>
    obtain ⟨place, files, created, rfl, rfl⟩ := opened
    -- the sink is still that of the file, which gets what is pending when it is given up
    obtain ⟨offset, pending, rfl⟩ := Sink.file_of_origin effect.origin
    obtain rfl := commitFile_ok h
    have written : FileSystem.SameBut (some place) files c.files := effect.files
    refine ⟨⟨effect.objects, place, files, created, ?_, ?_⟩,
      talks.later rfl (List.prefix_append ..), rfl⟩
    · exact written.trans
        (Sink.release_sameBut (.file place (FileSystem.join path name) offset pending) c.files)
    · rw [← bytes]
      exact Sink.content?_release effect.ready
  | bucket store service =>
    obtain ⟨rfl, rfl⟩ := opened
    -- the sink is still the buffer of the object, which is uploaded as a whole
    obtain rfl : sink' = .buffer name contentType data :=
      bytes ▸ Sink.buffer_of_origin effect.origin c.files
    obtain rfl := commitBuffer_ok h
    have objects : c.objects = b.objects := effect.objects
    exact ⟨⟨effect.files, congrArg (· ++ [_]) objects⟩,
      talks.later rfl (List.prefix_append ..), rfl⟩

/-- An artifact that is stored in one step is stored as given; nothing is asked for it. -/
theorem store_ok {target : Target} (storage : Storage) {name : String} {contentType : ContentType}
    {bytes : Bytes} {world world' : World} {done : Unit}
    (h : target.store name contentType bytes world = .ok done world') :
    target.Stored world ⟨name, contentType, bytes⟩ world' ∧ Talks storage world [] world' ∧
      world'.log = world.log ++ target.completion ⟨name, contentType, bytes⟩ := by
  obtain ⟨sink, between, opening, rest⟩ := bind_ok h
  have opened := openSink_ok opening
  obtain ⟨sink', filled, filling, committing⟩ := bind_ok rest
  obtain ⟨effect, log⟩ := Run.fill_ok storage opened.ready.1 filling
  obtain ⟨stored, talks, completed⟩ := opened.completed effect committing
  rw [log, opened.silent.2] at completed
  exact ⟨stored, talks, completed⟩

end Target

end TableExport
