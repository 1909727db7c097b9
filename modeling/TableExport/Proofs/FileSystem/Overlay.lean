import TableExport.FileSystem.Basic

/-!
# Contents laid over each other

What is kept under keys after some of it has been replaced, and what stands where in
a file system after a node has been set, a file written or a path followed.
-/
namespace TableExport

/-- Prior contents with some replaced in order. Of two of the same key the later counts. -/
def overlay {κ β : Type} [DecidableEq κ] (prior : κ → Option β) : List (κ × β) → κ → Option β
  | [] => prior
  | (key, content) :: rest => overlay (fun k => if k = key then some content else prior k) rest

section Overlay
variable {κ β : Type} [DecidableEq κ]

theorem overlay_append (prior : κ → Option β) (xs ys : List (κ × β)) :
    overlay prior (xs ++ ys) = overlay (overlay prior xs) ys := by
  induction xs generalizing prior with
  | nil => rfl
  | cons x xs ih => exact ih _

theorem overlay_of_absent (prior : κ → Option β) (xs : List (κ × β)) (key : κ)
    (absent : ∀ x ∈ xs, x.1 ≠ key) : overlay prior xs key = prior key := by
  induction xs generalizing prior with
  | nil => rfl
  | cons x xs ih =>
    -- the content in front is laid first, so the others see it as prior content
    rw [overlay, ih _ fun y hy => absent y (List.mem_cons_of_mem _ hy)]
    exact if_neg (absent x List.mem_cons_self).symm

theorem overlay_of_last (prior : κ → Option β) (xs ys : List (κ × β)) (key : κ) (content : β)
    (last : ∀ y ∈ ys, y.1 ≠ key) :
    overlay prior (xs ++ (key, content) :: ys) key = some content := by
  rw [overlay_append, overlay, overlay_of_absent _ _ _ last]
  exact if_pos rfl

/-- A key under which something was laid holds some of it. -/
theorem overlay_of_mem (prior : κ → Option β) (xs : List (κ × β)) (key : κ)
    (laid : key ∈ xs.map Prod.fst) :
    ∃ content, (key, content) ∈ xs ∧ overlay prior xs key = some content := by
  induction xs generalizing prior with
  | nil => cases laid
  | cons x xs ih =>
    by_cases later : key ∈ xs.map Prod.fst
    · obtain ⟨content, member, held⟩ := ih _ later
      exact ⟨content, List.mem_cons_of_mem _ member, held⟩
    · obtain rfl : key = x.1 := (List.mem_cons.mp laid).resolve_right later
      refine ⟨x.2, List.mem_cons_self, overlay_of_last prior [] xs x.1 x.2 fun y member same => ?_⟩
      exact later (same ▸ List.mem_map_of_mem member)

/-- A key that holds something goes on holding something. -/
theorem overlay_of_some {prior : κ → Option β} {key : κ} {content : β} (xs : List (κ × β))
    (held : prior key = some content) : ∃ content, overlay prior xs key = some content := by
  by_cases laid : key ∈ xs.map Prod.fst
  · obtain ⟨content, -, held⟩ := overlay_of_mem prior xs key laid
    exact ⟨content, held⟩
  · refine ⟨content, (overlay_of_absent prior xs key fun x member same => ?_).trans held⟩
    exact laid (same ▸ List.mem_map_of_mem member)

/-- Under a key that something is laid under, what was there before does not count. -/
theorem overlay_congr {prior other : κ → Option β} {xs : List (κ × β)} {key : κ}
    (agree : key ∉ xs.map Prod.fst → prior key = other key) :
    overlay prior xs key = overlay other xs key := by
  induction xs generalizing prior other with
  | nil => exact agree List.not_mem_nil
  | cons x xs ih =>
    apply ih
    intro later
    by_cases here : key = x.1
    · rw [if_pos here, if_pos here]
    · rw [if_neg here, if_neg here]
      exact agree (by simp [here, later])

/-- What is laid once is there already when it is laid again. -/
theorem overlay_again (prior : κ → Option β) (xs : List (κ × β)) :
    overlay (overlay prior xs) xs = overlay prior xs := by
  funext key
  apply overlay_congr
  intro absent
  exact overlay_of_absent prior xs key fun x member same => absent (same ▸ List.mem_map_of_mem member)

/-- Keys that are told apart by another name are laid under that name. -/
theorem overlay_map {ι : Type} [DecidableEq ι] {f : ι → κ} (apart : Function.Injective f)
    (prior : κ → Option β) (xs : List (ι × β)) (key : ι) :
    overlay prior (xs.map fun (k, content) => (f k, content)) (f key) =
      overlay (fun k => prior (f k)) xs key := by
  induction xs generalizing prior with
  | nil => rfl
  | cons x xs ih =>
    rw [List.map_cons, overlay, ih, overlay]
    congr 1
    funext k
    simp only [apart.eq_iff]

end Overlay

namespace FileSystem

/-! ## Nodes -/

theorem node?_root (fs : FileSystem) : fs.node? [] = some .directory := if_pos rfl

private theorem find?_replaced (nodes : List (Place × Node)) (place other : Place) (node : Node) :
    ((nodes.map fun entry => if entry.1 == place then (place, node) else entry).find?
        fun entry => entry.1 == other).map (·.2) =
      if other = place ∧ nodes.any (fun entry => entry.1 == place) then some node
      else (nodes.find? fun entry => entry.1 == other).map (·.2) := by
  induction nodes with
  | nil => simp
  | cons entry nodes ih =>
    simp only [List.map_cons, List.any_cons, List.find?_cons]
    by_cases here : entry.1 = place
    · by_cases same : other = place
      · simp [here, same]
      · have differs : (place == other) = false := by simpa using fun equal => same equal.symm
        simpa [here, same, differs] using ih
    · have off : (entry.1 == place) = false := by simpa using here
      simp only [off, Bool.false_or, Bool.false_eq_true, if_false]
      cases found : entry.1 == other with
      | false => exact ih
      | true =>
        have differs : ¬other = place := fun equal => here ((beq_iff_eq.mp found).trans equal)
        simp [differs]

theorem node?_set (fs : FileSystem) (place other : Place) (node : Node) (below : place ≠ []) :
    (fs.set place node).node? other = if other = place then some node else fs.node? other := by
  by_cases root : other = []
  · subst root
    rw [if_neg below.symm, node?_root, node?_root]
  · unfold node? set
    rw [if_neg root, if_neg root]
    split
    -- a node that is there is replaced where it stands, a new one goes to the end
    next present =>
      rw [find?_replaced]
      simp only [present, and_true]
    next absent =>
      simp only [List.find?_append, List.find?_cons, List.find?_nil]
      by_cases same : other = place
      · subst same
        have none : (fs.nodes.find? fun entry => entry.1 == other) = none := by
          rw [List.find?_eq_none]
          intro entry member equal
          exact absent (List.any_eq_true.mpr ⟨entry, member, equal⟩)
        simp [none]
      · have differs : (place == other) = false := by simpa using fun equal => same equal.symm
        simp [differs, same]

theorem current_set (fs : FileSystem) (place : Place) (node : Node) :
    (fs.set place node).current = fs.current := by
  unfold set
  split <;> rfl

/-! ## Contents of files -/

theorem node?_of_content? {fs : FileSystem} {place : Place} {content : Bytes}
    (h : fs.content? place = some content) : fs.node? place = some (.file content) := by
  unfold content? at h
  split at h
  next node => simpa [node] using h
  next => cases h

/-- What stands at a place is known by its content and by whether it is a directory. -/
theorem node?_ext {a b : FileSystem} {place other : Place}
    (content : a.content? place = b.content? other)
    (directory : a.node? place = some .directory ↔ b.node? other = some .directory) :
    a.node? place = b.node? other := by
  unfold content? at content
  cases here : a.node? place with
  | none =>
    cases there : b.node? other with
    | none => rfl
    | some node => cases node <;> simp_all
  | some node =>
    cases there : b.node? other with
    | none => cases node <;> simp_all
    | some node' => cases node <;> cases node' <;> simp_all

theorem ne_root_of_content? {fs : FileSystem} {place : Place} {content : Bytes}
    (h : fs.content? place = some content) : place ≠ [] := by
  rintro rfl
  simp [content?, node?_root] at h

theorem writeAt_end (fs : FileSystem) (place : Place) (content data : Bytes)
    (h : fs.content? place = some content) :
    fs.writeAt place content.length data = fs.set place (.file (content ++ data)) := by
  have appended : overwrite content content.length data = content ++ data := by
    unfold overwrite
    split
    next empty => simp [empty]
    next => simp
  simp [writeAt, h, appended]

/-- A place is a file, a directory or nothing; its content is known when its node is. -/
theorem content?_congr {fs fs' : FileSystem} {place : Place}
    (h : fs'.node? place = fs.node? place) : fs'.content? place = fs.content? place := by
  simp only [content?, h]

theorem content?_writeAt_end {fs : FileSystem} {place : Place} {content : Bytes} (data : Bytes)
    (h : fs.content? place = some content) :
    (fs.writeAt place content.length data).content? place = some (content ++ data) := by
  rw [writeAt_end fs place content data h]
  simp [content?, node?_set _ _ _ _ (ne_root_of_content? h)]

theorem node?_writeAt {fs : FileSystem} {place other : Place} (offset : Nat) (data : Bytes)
    (differs : other ≠ place) : (fs.writeAt place offset data).node? other = fs.node? other := by
  unfold writeAt
  split
  next content h => rw [node?_set _ _ _ _ (ne_root_of_content? h), if_neg differs]
  next => rfl

theorem current_writeAt (fs : FileSystem) (place : Place) (offset : Nat) (data : Bytes) :
    (fs.writeAt place offset data).current = fs.current := by
  unfold writeAt
  split
  next => exact current_set ..
  next => rfl

/-! ## Changing one file -/

/-- Only the file at a place is not what it was. -/
structure SameBut (place? : Option Place) (fs fs' : FileSystem) : Prop where
  current : fs'.current = fs.current
  node : ∀ other, place? ≠ some other → fs'.node? other = fs.node? other

theorem SameBut.refl (place? : Option Place) (fs : FileSystem) : SameBut place? fs fs :=
  ⟨rfl, fun _ _ => rfl⟩

theorem SameBut.trans {place? : Option Place} {a b c : FileSystem} (ab : SameBut place? a b)
    (bc : SameBut place? b c) : SameBut place? a c :=
  ⟨bc.current.trans ab.current, fun other differs =>
    (bc.node other differs).trans (ab.node other differs)⟩

theorem sameBut_writeAt (fs : FileSystem) (place : Place) (offset : Nat) (data : Bytes) :
    SameBut (some place) fs (fs.writeAt place offset data) :=
  ⟨current_writeAt .., fun _ differs => node?_writeAt offset data fun same => differs (same ▸ rfl)⟩

end FileSystem

end TableExport
