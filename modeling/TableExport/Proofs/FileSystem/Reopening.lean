import TableExport.Proofs.FileSystem.Landing

/-!
# Opening files again

A file that was opened once can be opened again as long as no directory is taken away and no
file is replaced by a directory: its parent is there, and its path leads to a file.
-/
namespace TableExport.FileSystem
variable {fs made : FileSystem} {path : String}

theorem isDirectory_iff : fs.isDirectory path = true ↔
    ∃ place, fs.resolve path = .ok place ∧ fs.node? place = some .directory := by
  unfold isDirectory
  cases fs.resolve path with
  | ok place => simp
  | error trouble => simp

theorem isDirectory_grows {fs' : FileSystem} (grows : Grows fs fs')
    (there : fs.isDirectory path = true) : fs'.isDirectory path = true := by
  obtain ⟨place, resolved, directory⟩ := isDirectory_iff.mp there
  exact isDirectory_iff.mpr ⟨place, resolve_grows grows resolved, grows.directory place directory⟩

/-! ## Directories that are made -/

theorem isDirectory_makeDirectory (h : fs.makeDirectory path = .ok made) :
    made.isDirectory path = true := by
  have grows := (makeDirectory_kept h).grows
  obtain ⟨place, resolved, absent, rfl⟩ := makeDirectory_ok h
  refine isDirectory_iff.mpr ⟨place, resolve_grows grows resolved, ?_⟩
  rw [node?_set _ _ _ _ (ne_root_of_absent absent), if_pos rfl]

theorem isDirectory_ensureOne (h : fs.ensureOne path = (true, made)) :
    made.isDirectory path = true := by
  unfold ensureOne at h
  split at h
  next made' ok =>
    cases h
    exact isDirectory_makeDirectory ok
  next =>
    obtain ⟨there, rfl⟩ := Prod.mk.inj h
    exact there

/-- What is said to be made is there. The empty path stands for the directory itself. -/
theorem isDirectory_ensureWithin {depth : Nat} (h : ensureWithin depth fs path = (true, made)) :
    path = "" ∨ made.isDirectory path = true := by
  cases depth with
  | zero => cases h
  | succ depth =>
    unfold ensureWithin at h
    split at h
    next empty => exact .inl empty
    next =>
      right
      split at h
      next made' _ ok =>
        cases h
        exact isDirectory_makeDirectory ok
      next =>
        obtain ⟨there, rfl⟩ := Prod.mk.inj h
        exact there
      next => cases h
      next =>
        split at h
        next => exact isDirectory_ensureOne h
        next => cases h

theorem ensureDirectory_there (there : path = "" ∨ fs.isDirectory path = true) :
    fs.ensureDirectory path = (true, fs) := by
  unfold ensureDirectory ensureWithin
  split
  next => rfl
  next named =>
    have found := there.resolve_left named
    obtain ⟨place, resolved, directory⟩ := isDirectory_iff.mp found
    have blocked : fs.makeDirectory path = .error .blocked := by
      simp [makeDirectory, resolved, directory]
    simp only [blocked, found]

/-! ## Files that were there -/

/-- The directory that a path asks for is there. -/
def Rooted (fs : FileSystem) (path : String) : Prop :=
  ∀ above, parent? path = some above → above = "" ∨ fs.isDirectory above = true

theorem Rooted.grows {fs' : FileSystem} (rooted : fs.Rooted path) (grows : Grows fs fs') :
    fs'.Rooted path :=
  fun above parent => (rooted above parent).imp_right (isDirectory_grows grows)

/-- A path leads to a file in a directory that is there. -/
structure Reopens (fs : FileSystem) (path : String) : Prop where
  rooted : fs.Rooted path
  lands : fs.Lands path
  file : ∃ content, fs.content? (fs.landing path) = some content

/-- Whatever is written later, a file stays one. -/
theorem Reopens.laid {fs' : FileSystem} {writes : List (String × Bytes)}
    (reopens : fs.Reopens path) (laid : Laid fs writes fs') : fs'.Reopens path := by
  obtain ⟨lands, same⟩ := reopens.lands.grows laid.grows
  refine ⟨reopens.rooted.grows laid.grows, lands, ?_⟩
  obtain ⟨content, held⟩ := reopens.file
  rw [same, laid.content]
  exact overlay_of_some _ held

theorem Reopens.create? (reopens : fs.Reopens path) :
    fs.create? path = some (fs.landing path, fs.set (fs.landing path) (.file [])) := by
  obtain ⟨content, held⟩ := reopens.file
  have node := node?_of_content? held
  simp [FileSystem.create?, reopens.lands.1, reopens.lands.2, node]

end TableExport.FileSystem
