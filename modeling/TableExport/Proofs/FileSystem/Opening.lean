import TableExport.Proofs.FileSystem.Trails

/-!
# Opening files below a directory

Opening the file of a plain name makes the directories on the way that are missing and
an empty file at the end of it. Nothing else is changed.
-/
namespace TableExport.FileSystem

/-- The only change is that directories were made on the way from `base` through `parts`. -/
structure Deepens (fs : FileSystem) (base : Place) (parts : List String) (fs' : FileSystem) :
    Prop where
  current : fs'.current = fs.current
  node : ∀ place, fs'.node? place = fs.node? place ∨
    (fs.node? place = none ∧ fs'.node? place = some .directory ∧
      ∃ n, 0 < n ∧ n ≤ parts.length ∧ place = base ++ parts.take n)

namespace Deepens
variable {fs fs' : FileSystem} {base : Place} {parts : List String}

theorem grows (deepens : Deepens fs base parts fs') : Grows fs fs' := by
  refine ⟨deepens.current, fun place directory => ?_⟩
  rcases deepens.node place with same | ⟨absent, -, -⟩
  · exact same.trans directory
  · exact absurd (absent.symm.trans directory) (by simp)

theorem content? (deepens : Deepens fs base parts fs') (place : Place) :
    fs'.content? place = fs.content? place := by
  rcases deepens.node place with same | ⟨absent, made, -⟩
  · exact content?_congr same
  · simp [FileSystem.content?, absent, made]

end Deepens

/-- Plain parts lead down, so what is made on their trail is made below the directory. -/
theorem Paves.deepens {fs fs' : FileSystem} {base : Place} {parts : List (List Char)}
    (paves : Paves fs (trail base (names parts)) fs') (plain : ArePlain parts) :
    Deepens fs base (names parts) fs' := by
  refine ⟨paves.current, fun place => ?_⟩
  rcases paves.node place with same | ⟨absent, made, onTrail⟩
  · exact .inl same
  · exact .inr ⟨absent, made, mem_trail_plain plain onTrail⟩

/-! ## Names joined to a directory -/

theorem resolve_empty (fs : FileSystem) : fs.resolve "" = .error .missing := by
  have unusable : isUsable "" = false := by decide
  simp [resolve, unusable]

theorem leads_of_resolve {fs : FileSystem} {path : String} {base : Place}
    (h : fs.resolve path = .ok base) (directory : fs.node? base = some .directory) :
    Leads fs (segments path.toList) base := by
  have parts := isParts_segments path.toList
  have nonempty : path ≠ "" := by
    rintro rfl
    simp [resolve_empty] at h
  rw [← ofSegments_segments path nonempty, resolve_ofSegments fs parts] at h
  split at h
  next => exact ⟨parts, h, directory⟩
  next => cases h

theorem isAbsolute_of_plain {name : String} (plain : IsPlain name) : isAbsolute name = false := by
  unfold IsPlain at plain
  unfold isAbsolute
  cases text : name.toList with
  | nil => rfl
  | cons c rest =>
    rw [text] at plain
    have notSlash : c ≠ '/' := by
      rintro rfl
      have cut : segments ('/' :: rest) = segments [] ++ segments rest := segments_append [] rest
      have empty : [] ∈ segments ('/' :: rest) := by
        rw [cut]
        exact List.mem_append_left _ List.mem_cons_self
      exact (plain [] empty).1 rfl
    simp [notSlash]

private theorem join_relative {path name : String} (nonempty : path ≠ "")
    (relative : isAbsolute name = false) :
    ∃ front, (front = path.toList ∨ front ++ ['/'] = path.toList) ∧
      join path name = String.ofList (front ++ '/' :: name.toList) := by
  unfold join
  simp only [relative, cond_false, nonempty, false_or]
  -- the slash between them is the directory's own or a new one
  split
  next slash =>
    obtain ⟨front, ended⟩ := List.getLast?_eq_some_iff.mp slash
    refine ⟨front, .inr ended.symm, String.toList_inj.mp ?_⟩
    simp [ended]
  next =>
    refine ⟨path.toList, .inl rfl, String.toList_inj.mp ?_⟩
    simp

private theorem leads_of_slash {fs : FileSystem} {front : List Char} {base : Place}
    (leads : Leads fs (segments (front ++ ['/'])) base) : Leads fs (segments front) base := by
  have parts := isParts_segments front
  have cut : segments (front ++ ['/']) = segments front ++ [[]] := segments_append front []
  obtain ⟨first, rest, same⟩ := List.exists_cons_of_ne_nil parts.nonempty
  have walk := leads.walk
  rw [cut, names_append, same] at walk
  -- the empty part behind the slash gives no name
  have idle : names [[]] = [] := rfl
  rw [idle, List.append_nil] at walk
  exact ⟨parts, same ▸ walk, leads.directory⟩

/-- A relative name joined to a directory leads through the directory. -/
theorem join_below {fs : FileSystem} {path name : String} {base : Place}
    (h : fs.resolve path = .ok base) (directory : fs.node? base = some .directory)
    (relative : isAbsolute name = false) :
    ∃ root, Leads fs root base ∧ join path name = ofSegments (root ++ segments name.toList) := by
  have leads := leads_of_resolve h directory
  have nonempty : path ≠ "" := by
    rintro rfl
    simp [resolve_empty] at h
  obtain ⟨front, text, joined⟩ := join_relative nonempty relative
  refine ⟨segments front, ?_, ?_⟩
  · rcases text with rfl | text
    · exact leads
    · exact leads_of_slash (text ▸ leads)
  · rw [joined, ← segments_append, ← String.toList_ofList (l := front ++ '/' :: name.toList),
      ofSegments_segments]
    · simp
    · intro empty
      simpa using congrArg String.toList empty

/-- Where the parts of a name start: at the directory, or at the root if the name is absolute. -/
def origin (base : Place) (name : String) : Place := if isAbsolute name then [] else base

/-- Any name joined to a directory leads on from its origin. -/
theorem exists_join {fs : FileSystem} {path name : String} {base : Place}
    (h : fs.resolve path = .ok base) (directory : fs.node? base = some .directory) :
    ∃ root parts, Leads fs root (origin base name) ∧ NoSlash parts ∧ names parts = steps name ∧
      parts.getLast? = (segments name.toList).getLast? ∧
      join path name = ofSegments (root ++ parts) := by
  cases absolute : isAbsolute name with
  | false =>
    obtain ⟨root, leads, joined⟩ := join_below h directory absolute
    have start : origin base name = base := by simp [origin, absolute]
    exact ⟨root, _, start.symm ▸ leads, slash_not_mem_segments _, rfl, rfl, joined⟩
  | true =>
    -- the name stands for itself, and the slash in front of it is the root
    have start : origin base name = [] := by simp [origin, absolute]
    obtain ⟨rest, text⟩ : ∃ rest, name.toList = '/' :: rest := by
      simpa [isAbsolute, List.head?_eq_some_iff] using absolute
    have cut : segments name.toList = [[]] ++ segments rest := by
      rw [text]
      exact segments_append [] rest
    have nonempty : name ≠ "" := by
      rintro rfl
      cases text
    have root : Leads fs [[]] [] := ⟨⟨nofun, by simp⟩, rfl, node?_root fs⟩
    refine ⟨[[]], segments rest, start.symm ▸ root, slash_not_mem_segments rest, ?_, ?_, ?_⟩
    · rw [steps_eq_names, cut, names_append]
      rfl
    · rw [cut, List.getLast?_append, List.getLast?_eq_some_getLast (segments_ne_nil rest)]
      rfl
    · rw [← cut, ofSegments_segments name nonempty]
      simp [join, absolute]

/-- A file that is opened is empty. It may have been there before, but not as a directory. -/
theorem create?_ok {fs fs' : FileSystem} {path : String} {place : Place}
    (h : fs.create? path = some (place, fs')) :
    fs.resolve path = .ok place ∧ endsInSlash path = false ∧
      fs.node? place ≠ some .directory ∧ fs' = fs.set place (.file []) := by
  unfold create? at h
  split at h
  next => cases h
  next found resolved =>
    rw [Bool.cond_eq_ite] at h
    split at h
    next => cases h
    next free =>
      simp only [Bool.or_eq_true, decide_eq_true_eq, not_or, Bool.not_eq_true] at free
      cases h
      exact ⟨resolved, free.1, free.2, rfl⟩

theorem ne_root_of_free {fs : FileSystem} {place : Place}
    (free : fs.node? place ≠ some .directory) : place ≠ [] := by
  rintro rfl
  exact free (node?_root fs)

theorem content?_opened {fs : FileSystem} {place : Place}
    (free : fs.node? place ≠ some .directory) :
    (fs.set place (.file [])).content? place = some [] := by
  simp [content?, node?_set _ _ _ _ (ne_root_of_free free)]

/-- Opening a file and writing it changes its place only, which was no directory. -/
theorem create?_sameBut {fs opened filled : FileSystem} {path : String} {place : Place}
    (h : fs.create? path = some (place, opened)) (written : SameBut (some place) opened filled) :
    SameBut (some place) fs filled ∧ Grows fs filled := by
  obtain ⟨-, -, free, rfl⟩ := create?_ok h
  have created : SameBut (some place) fs (fs.set place (.file [])) := by
    refine ⟨current_set .., fun other differs => ?_⟩
    rw [node?_set _ _ _ _ (ne_root_of_free free), if_neg]
    exact fun same => differs (congrArg some same.symm)
  have same := created.trans written
  refine ⟨same, same.current, fun other directory => ?_⟩
  rw [same.node other]
  · exact directory
  · rintro ⟨rfl⟩
    exact free directory

end TableExport.FileSystem
