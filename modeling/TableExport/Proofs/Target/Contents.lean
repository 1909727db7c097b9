import TableExport.Proofs.FileSystem.Landing
import TableExport.Proofs.FileSystem.Layers
import TableExport.Proofs.Target.Artifacts

/-!
# Contents of targets

Stored artifacts are laid over what the target held. Names that are plain keep to the
directory and away from each other; of other names only the last one to lead to a place
can be relied on.
-/
namespace TableExport

/-- The object under a key of a bucket: the last one that was uploaded. -/
def World.object? (world : World) (bucket key : String) : Option (ContentType × Bytes) :=
  (world.objects.reverse.find? fun object => object.bucket = bucket ∧ object.key = key).map
    fun object => (object.contentType, object.body)

theorem World.object?_congr {before after : World} (objects : after.objects = before.objects) :
    after.object? = before.object? := by
  unfold object?
  rw [objects]

theorem World.object?_upload {before after : World} {store : Bucket} {artifact : Artifact}
    (objects : after.objects = before.objects ++ [artifact.upload store]) (bucket : String) :
    after.object? bucket =
      if bucket = store.name then
        overlay (before.object? bucket) [(artifact.name, artifact.contentType, artifact.body)]
      else before.object? bucket := by
  funext key
  by_cases same : bucket = store.name
  · by_cases here : key = artifact.name
    · simp [object?, objects, Artifact.upload, overlay, same, here]
    · have other : artifact.name ≠ key := fun equal => here equal.symm
      simp [object?, objects, Artifact.upload, overlay, same, here, other]
  · have other : store.name ≠ bucket := fun equal => same equal.symm
    simp [object?, objects, Artifact.upload, same, other]

namespace Target

/-- The target can be written to: its directory exists. -/
def Exists (target : Target) (files : FileSystem) : Prop :=
  match target with
  | .directory path => files.isDirectory path = true
  | .bucket _ _ => True

/-- The target keeps what has this name apart from all else: below a directory, a plain name. -/
def Accepts (target : Target) (name : String) : Prop :=
  match target with
  | .directory _ => FileSystem.IsPlain name
  | .bucket _ _ => True

/-- The content of the target is what it was with artifacts laid over it in order. Below a
directory, directories were made where names lead through them; else nothing is changed. -/
def Overlaid (target : Target) (before : World) (artifacts : List Artifact) (after : World) :
    Prop :=
  match target with
  | .directory path =>
    after.objects = before.objects ∧
      ∃ base, before.files.resolve path = .ok base ∧
        before.files.Overlaid base
          (artifacts.map fun artifact => (FileSystem.steps artifact.name, artifact.body)) after.files
  | .bucket store _ =>
    FileSystem.SameBut none before.files after.files ∧
      ∀ bucket, after.object? bucket =
        if bucket = store.name then
          overlay (before.object? bucket)
            (artifacts.map fun artifact => (artifact.name, artifact.contentType, artifact.body))
        else before.object? bucket

theorem accepts_of_isPlain (target : Target) {name : String} (plain : FileSystem.IsPlain name) :
    target.Accepts name := by
  cases target with
  | directory path => exact plain
  | bucket store service => trivial

theorem base_of_exists {path : String} {files : FileSystem}
    (here : (directory path).Exists files) :
    ∃ base, files.resolve path = .ok base ∧ files.node? base = some .directory := by
  simp only [Exists, FileSystem.isDirectory] at here
  split at here
  next base resolved => exact ⟨base, resolved, by simpa using here⟩
  next => cases here

variable {target : Target} {a b c : World} {xs ys : List Artifact}

namespace Overlaid

theorem idle (here : target.Exists a.files) (files : b.files = a.files)
    (objects : b.objects = a.objects) : target.Overlaid a [] b := by
  cases target with
  | directory path =>
    obtain ⟨base, resolved, -⟩ := base_of_exists here
    exact ⟨objects, base, resolved, files ▸ .refl ..⟩
  | bucket store service =>
    exact ⟨files ▸ .refl .., fun bucket => by simp [World.object?_congr objects, overlay]⟩

theorem trans (first : target.Overlaid a xs b) (second : target.Overlaid b ys c) :
    target.Overlaid a (xs ++ ys) c := by
  cases target with
  | directory path =>
    obtain ⟨sameFirst, base, resolved, below⟩ := first
    obtain ⟨sameSecond, base', resolved', below'⟩ := second
    -- the path of the directory still leads where it led before the first part
    have again := FileSystem.resolve_grows below.grows resolved
    obtain rfl : base = base' := by simpa using again.symm.trans resolved'
    refine ⟨sameSecond.trans sameFirst, base, resolved, ?_⟩
    rw [List.map_append]
    exact below.trans below'
  | bucket store service =>
    refine ⟨first.1.trans second.1, fun bucket => ?_⟩
    rw [second.2 bucket, first.2 bucket]
    split
    next => rw [List.map_append, overlay_append]
    next => rfl

theorem exists_after (overlaid : target.Overlaid a xs b) (here : target.Exists a.files) :
    target.Exists b.files := by
  cases target with
  | directory path =>
    obtain ⟨-, base, resolved, below⟩ := overlaid
    obtain ⟨found, resolved', directory⟩ := base_of_exists here
    obtain rfl : base = found := by simpa using resolved.symm.trans resolved'
    simp [Exists, FileSystem.isDirectory, FileSystem.resolve_grows below.grows resolved,
      below.grows.directory base directory]
  | bucket store service => trivial

end Overlaid

/-! ## Names that keep apart -/

theorem Stored.overlaid {artifact : Artifact} (stored : target.Stored a artifact b)
    (here : target.Exists a.files) (accepts : target.Accepts artifact.name) :
    target.Overlaid a [artifact] b := by
  cases target with
  | directory path =>
    obtain ⟨objects, place, opened, created, same, held⟩ := stored
    obtain ⟨base, resolved, directory⟩ := base_of_exists here
    obtain ⟨rfl, below⟩ := FileSystem.create?_overlaid resolved directory accepts created
    exact ⟨objects, base, resolved, below.filled held same⟩
  | bucket store service => exact ⟨stored.1, World.object?_upload stored.2⟩

theorem Writes.overlaid (writes : target.Writes a xs b) (here : target.Exists a.files)
    (accepts : ∀ artifact ∈ xs, target.Accepts artifact.name) : target.Overlaid a xs b := by
  -- the directory exists before each part, since no part takes a directory away
  induction writes with
  | idle files objects => exact .idle here files objects
  | store stored => exact stored.overlaid here (accepts _ List.mem_cons_self)
  | trans first second ihFirst ihSecond =>
    have early := ihFirst here fun artifact member => accepts artifact (List.mem_append_left _ member)
    exact early.trans (ihSecond (early.exists_after here)
      fun artifact member => accepts artifact (List.mem_append_right _ member))

theorem Writes.objects {store : Bucket} {service : ObjectService}
    (writes : (bucket store service).Writes a xs b) :
    b.objects = a.objects ++ xs.map (Artifact.upload store) := by
  induction writes with
  | idle files objects => simpa using objects
  | store stored => exact stored.2
  | trans first second ihFirst ihSecond => rw [ihSecond, ihFirst, List.map_append, List.append_assoc]

/-! ## Names of any form -/

/-- Names that stand for one and the same object, or whose paths lead to the same file. -/
def SamePlace (target : Target) (files : FileSystem) (name other : String) : Prop :=
  match target with
  | .directory path =>
    files.resolve (FileSystem.join path name) = files.resolve (FileSystem.join path other)
  | .bucket _ _ => name = other

/-- The artifact is read back from the target by its name. -/
def Holds (target : Target) (world : World) (artifact : Artifact) : Prop :=
  match target with
  | .directory path =>
    world.files.read? (FileSystem.join path artifact.name) = some artifact.body
  | .bucket store _ =>
    world.object? store.name artifact.name = some (artifact.contentType, artifact.body)

theorem Writes.laid {path : String} (writes : (directory path).Writes a xs b) :
    a.files.Laid
      (xs.map fun artifact => (FileSystem.join path artifact.name, artifact.body)) b.files := by
  induction writes with
  | idle files objects => exact files ▸ .refl ..
  | store stored =>
    obtain ⟨-, place, opened, created, same, held⟩ := stored
    exact FileSystem.laid_of_create? created same held
  | trans first second ihFirst ihSecond =>
    rw [List.map_append]
    exact ihFirst.trans ihSecond

/-- The last artifact that goes to a place is there at the end. -/
theorem Writes.holds {artifact : Artifact} (writes : target.Writes a (xs ++ artifact :: ys) b)
    (last : ∀ other ∈ ys, ¬target.SamePlace b.files other.name artifact.name) :
    target.Holds b artifact := by
  cases target with
  | directory path =>
    have laid := writes.laid
    rw [List.map_append, List.map_cons] at laid
    apply laid.read?_last
    intro write member
    obtain ⟨other, found, rfl⟩ := List.mem_map.mp member
    exact last other found
  | bucket store service =>
    have overlaid := (writes.overlaid trivial fun _ _ => trivial).2 store.name
    rw [if_pos rfl, List.map_append, List.map_cons] at overlaid
    refine (congrFun overlaid artifact.name).trans (overlay_of_last _ _ _ _ _ ?_)
    intro write member
    obtain ⟨other, found, rfl⟩ := List.mem_map.mp member
    exact last other found

/-- An artifact is there at the end if it and the later ones have names that keep apart. -/
theorem Writes.holds_apart {artifact : Artifact} (writes : target.Writes a (xs ++ artifact :: ys) b)
    (here : target.Exists a.files) (accepts : target.Accepts artifact.name)
    (later : ∀ other ∈ ys, target.Accepts other.name ∧ other.name ≠ artifact.name) :
    target.Holds b artifact := by
  apply writes.holds
  -- a later artifact has another name, and so another place
  intro other member same
  obtain ⟨accepted, differs⟩ := later other member
  apply differs
  cases target with
  | directory path =>
    obtain ⟨base, resolved, directory⟩ := base_of_exists here
    have laid := writes.laid
    have written : artifact ∈ xs ++ artifact :: ys := by simp
    have lands := (laid.lands (FileSystem.join path artifact.name, artifact.body)
      (List.mem_map_of_mem written)).1
    have sameResolve : b.files.resolve (FileSystem.join path other.name) =
        b.files.resolve (FileSystem.join path artifact.name) := same
    exact FileSystem.eq_of_same_resolve (FileSystem.resolve_grows laid.grows resolved)
      (laid.grows.directory base directory) accepted accepts (sameResolve.trans lands) lands
  | bucket store service => exact same

/-- Artifacts of different names that keep apart are all there at the end. -/
theorem Writes.holds_all (writes : target.Writes a xs b) (here : target.Exists a.files)
    (accepts : ∀ artifact ∈ xs, target.Accepts artifact.name)
    (distinct : (xs.map Artifact.name).Nodup) : ∀ artifact ∈ xs, target.Holds b artifact := by
  intro artifact member
  obtain ⟨front, back, rfl⟩ := List.append_of_mem member
  refine writes.holds_apart here (accepts artifact member) fun other later => ?_
  refine ⟨accepts other (by simp [later]), fun equal => ?_⟩
  rw [List.map_append, List.map_cons, List.nodup_append, List.nodup_cons] at distinct
  exact distinct.2.1.1 (equal ▸ List.mem_map_of_mem later)

end Target

end TableExport
