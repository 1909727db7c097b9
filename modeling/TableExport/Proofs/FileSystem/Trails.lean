import TableExport.Proofs.FileSystem.Walks

/-!
# Trails of names

Names are joined to a directory as they are, so two dots go up and an absolute name leaves the
directory at once. The trail of a name is the places that its parts lead through. The directories
that are made for a path are on the trail of what follows an existing directory in it.
-/
namespace TableExport.FileSystem

/-! ## Following parts by their names -/

/-- The place that a part leads to. One dot stays and two dots go up. -/
def enter (place : Place) (part : String) : Place :=
  if part = "." then place else if part = ".." then place.dropLast else place ++ [part]

def follow (place : Place) (parts : List String) : Place := parts.foldl enter place

/-- The places that parts lead through, each of them behind one more part. -/
def trail (place : Place) : List String → List Place
  | [] => []
  | part :: rest => enter place part :: trail (enter place part) rest

theorem trail_append (place : Place) (xs ys : List String) :
    trail place (xs ++ ys) = trail place xs ++ trail (follow place xs) ys := by
  induction xs generalizing place with
  | nil => rfl
  | cons part xs ih =>
    rw [List.cons_append, trail, ih, trail, List.cons_append]
    rfl

theorem trail_subset {xs ys : List String} (front : xs <+: ys) (place : Place) :
    trail place xs ⊆ trail place ys := by
  obtain ⟨rest, rfl⟩ := front
  rw [trail_append]
  exact List.subset_append_left ..

theorem follow_mem_trail {parts : List String} (some_ : parts ≠ []) (place : Place) :
    follow place parts ∈ trail place parts := by
  obtain ⟨front, last, rfl⟩ : ∃ front last, parts = front ++ [last] :=
    ⟨_, _, (List.dropLast_concat_getLast some_).symm⟩
  have here : follow place (front ++ [last]) = enter (follow place front) last := by
    simp [follow]
  rw [trail_append, here]
  exact List.mem_append_right _ List.mem_cons_self

/-- What is found by following parts is where their names lead. -/
theorem walk_follow {fs : FileSystem} {place reached : Place} {parts : List String}
    (h : fs.walk place parts = .ok reached) : reached = follow place parts := by
  induction parts generalizing place with
  | nil =>
    cases h
    rfl
  | cons part parts ih =>
    have onward : fs.walk (enter place part) parts = .ok reached := by
      simp only [walk] at h
      unfold enter
      split at h
      next => cases h
      next => cases h
      next =>
        split at h
        next dot => rwa [if_pos dot]
        next notDot =>
          rw [if_neg notDot]
          split at h
          next up => rwa [if_pos up]
          next notUp =>
            rw [if_neg notUp]
            split at h
            next => cases h
            next => exact h
    exact ih onward

/-! ## Idle parts -/

/-- The last part that is not idle, if there is one. -/
theorem idle_or_busy (parts : List (List Char)) : (∀ part ∈ parts, isIdle part = true) ∨
    ∃ front part idle, parts = front ++ part :: idle ∧ isIdle part = false ∧
      ∀ other ∈ idle, isIdle other = true := by
  induction parts with
  | nil => exact .inl nofun
  | cons part parts ih =>
    obtain all | ⟨front, busy, idle, rfl, found, rest⟩ := ih
    · cases here : isIdle part with
      | true => exact .inl (List.forall_mem_cons.mpr ⟨here, all⟩)
      | false => exact .inr ⟨[], part, parts, rfl, here, all⟩
    · exact .inr ⟨part :: front, busy, idle, rfl, found, rest⟩

theorem busy_of_not_idle {part : List Char} (busy : isIdle part = false) :
    part ≠ [] ∧ part ≠ ['.'] := by
  simpa [isIdle] using busy

theorem dropIdle_append {idle rest : List (List Char)} (all : ∀ part ∈ idle, isIdle part = true)
    (more : rest ≠ []) : dropIdle (idle ++ rest) = dropIdle rest := by
  induction idle with
  | nil => rfl
  | cons part idle ih =>
    obtain ⟨here, later⟩ := List.forall_mem_cons.mp all
    obtain ⟨first, behind, same⟩ := List.exists_cons_of_ne_nil
      (show idle ++ rest ≠ [] by simp [more])
    have step : dropIdle (part :: (idle ++ rest)) = dropIdle (idle ++ rest) := by
      rw [same, dropIdle, if_pos here]
      exact List.cons_ne_nil first behind
    rw [List.cons_append, step, ih later]

theorem dropIdle_reverse {front idle : List (List Char)} {part : List Char}
    (busy : isIdle part = false) (all : ∀ other ∈ idle, isIdle other = true) :
    dropIdle (front ++ part :: idle).reverse = part :: front.reverse := by
  have turned : (front ++ part :: idle).reverse = idle.reverse ++ part :: front.reverse := by simp
  have turnedIdle : ∀ other ∈ idle.reverse, isIdle other = true :=
    fun other member => all other (List.mem_reverse.mp member)
  rw [turned, dropIdle_append turnedIdle (List.cons_ne_nil part front.reverse),
    dropIdle_cons_busy _ (busy_of_not_idle busy)]

theorem trim_idle {front idle : List (List Char)} (nonempty : front ≠ [])
    (all : ∀ part ∈ idle, isIdle part = true) : trim (front ++ idle) = trim front := by
  unfold trim
  rw [List.reverse_append, dropIdle_append]
  · exact fun part member => all part (List.mem_reverse.mp member)
  · exact mt List.reverse_eq_nil_iff.mp nonempty

/-- The parent of a path is what is in front of its last part that names something. -/
theorem parent?_ofSegments {front idle : List (List Char)} {part : List Char}
    (h : IsParts (front ++ part :: idle)) (nonempty : front ≠ []) (busy : isIdle part = false)
    (all : ∀ other ∈ idle, isIdle other = true) :
    parent? (ofSegments (front ++ part :: idle)) = some (ofSegments (trim front)) := by
  have cut : segments (ofSegments (front ++ part :: idle)).toList = front ++ part :: idle := by
    rw [segments_ofSegments h, if_neg]
    intro single
    have length := congrArg List.length single
    have positive := List.length_pos_iff.mpr nonempty
    simp only [List.length_append, List.length_cons, List.length_nil] at length
    omega
  unfold parent? trim
  rw [cut, dropIdle_reverse busy all]
  obtain ⟨first, rest, back⟩ := List.exists_cons_of_ne_nil (mt List.reverse_eq_nil_iff.mp nonempty)
  rw [back]
  cases part with
  | nil => exact absurd rfl (busy_of_not_idle busy).1
  | cons c cs => rfl

/-! ## Paths below an existing directory -/

section Leads
variable {fs : FileSystem} {root : List (List Char)} {base : Place}

/-- Idle parts behind a directory lead to it again. -/
theorem walk_idle {idle : List (List Char)} (directory : fs.node? base = some .directory)
    (all : ∀ part ∈ idle, isIdle part = true) : fs.walk base (names idle) = .ok base := by
  induction idle with
  | nil => rfl
  | cons part idle ih =>
    obtain ⟨here, later⟩ := List.forall_mem_cons.mp all
    have onward := ih later
    simp only [isIdle, Bool.or_eq_true, decide_eq_true_eq] at here
    -- an empty part gives no name, and one dot stays where it is
    obtain rfl | rfl := here
    · exact onward
    · have dot : names (['.'] :: idle) = "." :: names idle := rfl
      rw [dot, walk, directory]
      exact onward

theorem Leads.makeDirectory_idle {idle : List (List Char)} (leads : Leads fs root base)
    (noSlash : NoSlash idle) (all : ∀ part ∈ idle, isIdle part = true) :
    fs.makeDirectory (ofSegments (root ++ idle)) = .error .blocked := by
  unfold FileSystem.makeDirectory
  rw [leads.resolve_append noSlash, walk_idle leads.directory all]
  by_cases usable : isUsable (ofSegments (root ++ idle)) = true
  · simp [usable, leads.directory]
  · simp [usable]

/-- What is left in front of a part still leads through the directory. -/
theorem Leads.above (front : List (List Char)) (leads : Leads fs root base) :
    ∃ upper kept, Leads fs upper base ∧ kept <+: front ∧
      FileSystem.trim (root ++ front) = upper ++ kept := by
  obtain idle | ⟨first, part, idle, rfl, busy, all⟩ := idle_or_busy front
  · exact ⟨FileSystem.trim root, [], leads.trim, List.nil_prefix, by
      rw [trim_idle leads.parts.nonempty idle, List.append_nil]⟩
  · refine ⟨root, first ++ [part], leads, ⟨idle, by simp⟩, ?_⟩
    rw [← List.append_assoc, FileSystem.trim, dropIdle_reverse busy all]
    simp

end Leads

/-! ## Directories that are made -/

theorem ne_root_of_absent {fs : FileSystem} {place : Place} (h : fs.node? place = none) :
    place ≠ [] := by
  rintro rfl
  simp [node?_root] at h

theorem makeDirectory_ok {fs made : FileSystem} {path : String}
    (h : fs.makeDirectory path = .ok made) :
    ∃ place, fs.resolve path = .ok place ∧ fs.node? place = none ∧
      made = fs.set place .directory := by
  unfold makeDirectory at h
  split at h
  next => cases h
  next place resolved =>
    split at h
    next => cases h
    next free =>
      cases h
      exact ⟨place, resolved, by simpa using free, rfl⟩

/-- The only change is that directories were made, at some of these places. -/
structure Paves (fs : FileSystem) (places : List Place) (fs' : FileSystem) : Prop where
  current : fs'.current = fs.current
  node : ∀ place, fs'.node? place = fs.node? place ∨
    (fs.node? place = none ∧ fs'.node? place = some .directory ∧ place ∈ places)

namespace Paves
variable {fs fs' : FileSystem} {places : List Place}

theorem refl (fs : FileSystem) (places : List Place) : Paves fs places fs :=
  ⟨rfl, fun _ => .inl rfl⟩

theorem trans {fs'' : FileSystem} (first : Paves fs places fs') (second : Paves fs' places fs'') :
    Paves fs places fs'' := by
  refine ⟨second.current.trans first.current, fun place => ?_⟩
  rcases first.node place with same | ⟨absent, made, listed⟩
  · rw [← same]
    exact second.node place
  · -- a directory just made is there and cannot be made again
    rcases second.node place with same | ⟨gone, -, -⟩
    · exact .inr ⟨absent, same.trans made, listed⟩
    · exact absurd (gone.symm.trans made) (by simp)

theorem mono {more : List Place} (paves : Paves fs places fs') (wider : places ⊆ more) :
    Paves fs more fs' := by
  refine ⟨paves.current, fun place => ?_⟩
  rcases paves.node place with same | ⟨absent, made, listed⟩
  · exact .inl same
  · exact .inr ⟨absent, made, wider listed⟩

theorem grows (paves : Paves fs places fs') : Grows fs fs' := by
  refine ⟨paves.current, fun place directory => ?_⟩
  rcases paves.node place with same | ⟨absent, -, -⟩
  · exact same.trans directory
  · exact absurd (absent.symm.trans directory) (by simp)

end Paves

section Making
variable {fs : FileSystem} {root parts : List (List Char)} {base : Place}

theorem Leads.resolve_follow {place : Place} (leads : Leads fs root base) (noSlash : NoSlash parts)
    (h : fs.resolve (ofSegments (root ++ parts)) = .ok place) :
    place = follow base (names parts) := by
  rw [leads.resolve_append noSlash] at h
  split at h
  next => exact walk_follow h
  next => cases h

theorem makeDirectory_paves {made : FileSystem} (leads : Leads fs root base)
    (noSlash : NoSlash parts) (h : fs.makeDirectory (ofSegments (root ++ parts)) = .ok made) :
    Paves fs (trail base (names parts)) made := by
  obtain ⟨place, resolved, absent, rfl⟩ := makeDirectory_ok h
  have here := leads.resolve_follow noSlash resolved
  -- one directory is new, at the end of the trail and not at its start, which exists
  have further : names parts ≠ [] := by
    intro none
    rw [here, none, follow, List.foldl_nil, leads.directory] at absent
    cases absent
  refine ⟨current_set .., fun other => ?_⟩
  rw [node?_set _ _ _ _ (ne_root_of_absent absent)]
  split
  next same =>
    subst other
    exact .inr ⟨absent, rfl, here ▸ follow_mem_trail further base⟩
  next => exact .inl rfl

theorem ensureOne_paves (leads : Leads fs root base) (noSlash : NoSlash parts) :
    Paves fs (trail base (names parts)) (fs.ensureOne (ofSegments (root ++ parts))).2 := by
  unfold ensureOne
  split
  next made ok => exact makeDirectory_paves leads noSlash ok
  next => exact .refl ..

theorem names_front {xs ys : List (List Char)} (front : xs <+: ys) : names xs <+: names ys := by
  obtain ⟨rest, rfl⟩ := front
  rw [names_append]
  exact List.prefix_append ..

/-- Making a directory below an existing one stays on the trail: the ancestors that are tried
end with the existing directory, which is there already. -/
theorem ensureWithin_paves (depth : Nat) (leads : Leads fs root base) (noSlash : NoSlash parts) :
    Paves fs (trail base (names parts)) (ensureWithin depth fs (ofSegments (root ++ parts))).2 := by
  -- a parent may end in idle parts of the root, so the root's text varies in the induction
  induction depth generalizing root parts with
  | zero => exact .refl ..
  | succ depth ih =>
    unfold ensureWithin
    rw [if_neg (ofSegments_ne_empty (leads.isParts noSlash))]
    split
    next made _ ok => exact makeDirectory_paves leads noSlash ok
    next => exact .refl ..
    next => exact .refl ..
    next above missing parent =>
      obtain idle | ⟨front, part, idle, rfl, busy, all⟩ := idle_or_busy parts
      · -- the existing directory itself is never missing
        rw [leads.makeDirectory_idle noSlash idle] at missing
        cases missing
      have isParts := leads.isParts noSlash
      obtain ⟨upper, kept, upperLeads, front', same⟩ := leads.above front
      have whole : kept <+: front ++ part :: idle := front'.trans (List.prefix_append ..)
      rw [← List.append_assoc] at isParts parent
      rw [parent?_ofSegments isParts (by simp [leads.parts.nonempty]) busy all, same,
        Option.some.injEq] at parent
      have paved := (ih upperLeads fun other member => noSlash other (whole.subset member)).mono
        (trail_subset (names_front whole) base)
      rw [parent] at paved
      split
      next fs' tried =>
        rw [tried] at paved
        exact paved.trans (ensureOne_paves (leads.grows paved.grows) noSlash)
      next fs' tried =>
        rw [tried] at paved
        exact paved

/-- What a file system is once the directories that a path asks for are made. -/
def withParents (fs : FileSystem) (path : String) : FileSystem :=
  match parent? path with
  | none => fs
  | some above => (fs.ensureDirectory above).2

theorem withParents_paves {front idle : List (List Char)} {part : List Char}
    (leads : Leads fs root base) (noSlash : NoSlash (front ++ part :: idle))
    (busy : isIdle part = false) (all : ∀ other ∈ idle, isIdle other = true) :
    Paves fs (trail base (names front))
      (fs.withParents (ofSegments (root ++ (front ++ part :: idle)))) := by
  have isParts := leads.isParts noSlash
  obtain ⟨upper, kept, upperLeads, front', above⟩ := leads.above front
  have whole : kept <+: front ++ part :: idle := front'.trans (List.prefix_append ..)
  unfold withParents
  rw [← List.append_assoc] at isParts ⊢
  rw [parent?_ofSegments isParts (by simp [leads.parts.nonempty]) busy all, above]
  have keptNoSlash : NoSlash kept := fun other member => noSlash other (whole.subset member)
  exact (ensureWithin_paves _ upperLeads keptNoSlash).mono
    (trail_subset (names_front front') base)

end Making

/-! ## Trails of plain names -/

/-- Plain parts lead down one by one. -/
theorem mem_trail_plain {parts : List (List Char)} {base place : Place} (plain : ArePlain parts)
    (h : place ∈ trail base (names parts)) :
    ∃ n, 0 < n ∧ n ≤ (names parts).length ∧ place = base ++ (names parts).take n := by
  rw [names_of_plain plain] at h ⊢
  induction parts generalizing base with
  | nil => cases h
  | cons part parts ih =>
    obtain ⟨⟨-, notDot, notUp⟩, -⟩ := plain part List.mem_cons_self
    have entered : enter base (String.ofList part) = base ++ [String.ofList part] := by
      unfold enter
      rw [if_neg, if_neg]
      · exact fun up => notUp (by simpa using congrArg String.toList up)
      · exact fun dot => notDot (by simpa using congrArg String.toList dot)
    rw [List.map_cons, trail, entered] at h
    rcases List.mem_cons.mp h with rfl | later
    · exact ⟨1, by omega, by simp, by simp⟩
    · obtain ⟨n, positive, bounded, rfl⟩ :=
        ih (fun p member => plain p (List.mem_cons_of_mem _ member)) later
      refine ⟨n + 1, by omega, ?_, by simp⟩
      simpa using bounded

end TableExport.FileSystem
