import TableExport.Proofs.FileSystem.Opening

/-!
# Where files land

Files are written one after the other under paths of any form. Each lands where its path
leads at the end, and holds what was written last under a path that leads there.
-/
namespace TableExport.FileSystem

/-- Directories may have been made, but no content is changed. -/
structure Kept (before after : FileSystem) : Prop where
  grows : Grows before after
  content : after.content? = before.content?

namespace Kept
variable {a b c fs : FileSystem}

theorem refl (fs : FileSystem) : Kept fs fs := ⟨.refl fs, rfl⟩

theorem trans (first : Kept a b) (second : Kept b c) : Kept a c :=
  ⟨first.grows.trans second.grows, second.content.trans first.content⟩

end Kept

theorem makeDirectory_kept {fs made : FileSystem} {path : String}
    (h : fs.makeDirectory path = .ok made) : Kept fs made := by
  obtain ⟨place, -, absent, rfl⟩ := makeDirectory_ok h
  have node := fun other => node?_set fs place other .directory (ne_root_of_absent absent)
  refine ⟨⟨current_set .., fun other directory => ?_⟩, funext fun other => ?_⟩
  · rw [node]
    split
    next => rfl
    next => exact directory
  · by_cases here : other = place
    · simp [content?, node, here, absent]
    · exact content?_congr ((node other).trans (if_neg here))

theorem ensureOne_kept (fs : FileSystem) (path : String) : Kept fs (fs.ensureOne path).2 := by
  unfold ensureOne
  split
  next made ok => exact makeDirectory_kept ok
  next => exact .refl fs

theorem ensureWithin_kept (depth : Nat) (fs : FileSystem) (path : String) :
    Kept fs (ensureWithin depth fs path).2 := by
  induction depth generalizing path with
  | zero => exact .refl fs
  | succ depth ih =>
    unfold ensureWithin
    split
    next => exact .refl fs
    next =>
      -- made at once, blocked, without a parent, or made after its parent
      split
      next made _ ok => exact makeDirectory_kept ok
      next => exact .refl fs
      next => exact .refl fs
      next above _ _ =>
        have kept := ih above
        split
        next fs' tried =>
          rw [tried] at kept
          exact kept.trans (ensureOne_kept fs' path)
        next fs' tried =>
          rw [tried] at kept
          exact kept

theorem withParents_kept (fs : FileSystem) (path : String) : Kept fs (fs.withParents path) := by
  unfold withParents
  split
  next => exact .refl fs
  next above _ => exact ensureWithin_kept _ fs above

/-- The place that a path leads to; the root, where no file is, if it leads nowhere. -/
def landing (fs : FileSystem) (path : String) : Place :=
  match fs.resolve path with
  | .ok place => place
  | .error _ => []

/-- A path under which a file can be read. -/
def Lands (fs : FileSystem) (path : String) : Prop :=
  fs.resolve path = .ok (fs.landing path) ∧ endsInSlash path = false

theorem Lands.of_resolve {fs : FileSystem} {path : String} {place : Place}
    (resolved : fs.resolve path = .ok place) (file : endsInSlash path = false) :
    fs.Lands path ∧ fs.landing path = place := by
  have here : fs.landing path = place := by
    unfold landing
    rw [resolved]
  exact ⟨⟨here ▸ resolved, file⟩, here⟩

theorem Lands.grows {fs fs' : FileSystem} {path : String} (lands : fs.Lands path)
    (grows : Grows fs fs') : fs'.Lands path ∧ fs'.landing path = fs.landing path :=
  Lands.of_resolve (resolve_grows grows lands.1) lands.2

/-- `after` is `before` with contents written, in order, under paths that lead somewhere. -/
structure Laid (before : FileSystem) (writes : List (String × Bytes)) (after : FileSystem) :
    Prop where
  grows : Grows before after
  lands : ∀ write ∈ writes, after.Lands write.1
  content : after.content? =
    overlay before.content? (writes.map fun (path, content) => (after.landing path, content))

namespace Laid
variable {a b c : FileSystem} {xs ys : List (String × Bytes)}

theorem refl (fs : FileSystem) : Laid fs [] fs := ⟨.refl fs, nofun, rfl⟩

theorem trans (first : Laid a xs b) (second : Laid b ys c) : Laid a (xs ++ ys) c := by
  -- what follows makes directories only, so each path goes on leading where it led
  have onward := fun write member => (first.lands write member).grows second.grows
  refine ⟨first.grows.trans second.grows, fun write member => ?_, ?_⟩
  · rcases List.mem_append.mp member with early | late
    · exact (onward write early).1
    · exact second.lands write late
  · have same : (xs.map fun (path, content) => (b.landing path, content)) =
        xs.map fun (path, content) => (c.landing path, content) := by
      apply List.map_congr_left
      rintro ⟨path, content⟩ member
      exact congrArg (fun place => (place, content)) (onward (path, content) member).2.symm
    rw [second.content, first.content, same, ← overlay_append, List.map_append]

/-- What was written last to the place that a path leads to is there. -/
theorem content?_last {path : String} {content : Bytes}
    (laid : Laid a (xs ++ (path, content) :: ys) b)
    (last : ∀ write ∈ ys, b.landing write.1 ≠ b.landing path) :
    b.content? (b.landing path) = some content := by
  rw [laid.content, List.map_append, List.map_cons]
  apply overlay_of_last
  intro write member
  obtain ⟨later, found, rfl⟩ := List.mem_map.mp member
  exact last later found

/-- What was written last under a path that leads to some place is read there. -/
theorem read?_last {path : String} {content : Bytes} (laid : Laid a (xs ++ (path, content) :: ys) b)
    (last : ∀ write ∈ ys, b.resolve write.1 ≠ b.resolve path) : b.read? path = some content := by
  have lands := laid.lands (path, content) (by simp)
  have kept : b.content? (b.landing path) = some content := by
    apply laid.content?_last
    -- paths that land on one place resolve alike
    intro later found same
    have other := laid.lands later (by simp [found])
    exact last later found (other.1.trans ((congrArg Except.ok same).trans lands.1.symm))
  unfold read?
  rw [lands.1]
  simp [lands.2, kept]

/-- A path that something was written under leads to a file. -/
theorem content?_landing (laid : Laid a xs b) {write : String × Bytes} (member : write ∈ xs) :
    ∃ content, b.content? (b.landing write.1) = some content := by
  obtain ⟨content, -, held⟩ := overlay_of_mem a.content?
    (xs.map fun (path, content) => (b.landing path, content)) (b.landing write.1)
    (List.mem_map.mpr ⟨_, List.mem_map_of_mem member, rfl⟩)
  exact ⟨content, laid.content ▸ held⟩

end Laid

/-- A file that is opened and then filled is written where its path leads. -/
theorem laid_of_create? {fs opened filled : FileSystem} {path : String} {place : Place}
    {content : Bytes}
    (h : (fs.withParents path).create? path = some (place, opened))
    (same : SameBut (some place) opened filled) (held : filled.content? place = some content) :
    Laid fs [(path, content)] filled := by
  have kept := withParents_kept fs path
  obtain ⟨only, grows⟩ := create?_sameBut h same
  obtain ⟨resolved, file, -, -⟩ := create?_ok h
  obtain ⟨lands, here⟩ := Lands.of_resolve (resolve_grows grows resolved) file
  refine ⟨kept.grows.trans grows, by simpa using lands, funext fun other => ?_⟩
  rw [← kept.content]
  by_cases at_ : other = place
  · simp [overlay, here, at_, held]
  · have differs : some place ≠ some other := fun equal => at_ (Option.some.inj equal).symm
    simp [overlay, here, at_, content?_congr (only.node other differs)]

end TableExport.FileSystem
