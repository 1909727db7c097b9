import TableExport.Proofs.FileSystem.Paths

/-!
# Following paths

A path below an existing directory leads to the place of that directory followed by
the parts of its plain name, and goes on doing so while more is made.
-/
namespace TableExport.FileSystem

/-! ## Following parts -/

theorem walk_append (fs : FileSystem) (place : Place) (xs ys : List String) :
    fs.walk place (xs ++ ys) =
      match fs.walk place xs with
      | .ok reached => fs.walk reached ys
      | .error trouble => .error trouble := by
  induction xs generalizing place with
  | nil => rfl
  | cons part xs ih =>
    simp only [List.cons_append, walk]
    cases fs.node? place with
    | none => rfl
    | some node =>
      cases node with
      | file content => rfl
      | directory =>
        simp only [ih]
        split
        next => rfl
        next =>
          split
          next => rfl
          next => split <;> rfl

/-- Everything that was a directory still is one. -/
structure Grows (fs fs' : FileSystem) : Prop where
  current : fs'.current = fs.current
  directory : ∀ place, fs.node? place = some .directory → fs'.node? place = some .directory

theorem Grows.refl (fs : FileSystem) : Grows fs fs := ⟨rfl, fun _ => id⟩

theorem Grows.trans {a b c : FileSystem} (ab : Grows a b) (bc : Grows b c) : Grows a c :=
  ⟨bc.current.trans ab.current, fun place h => bc.directory place (ab.directory place h)⟩

theorem walk_grows {fs fs' : FileSystem} (grows : Grows fs fs') {place reached : Place}
    {parts : List String} (h : fs.walk place parts = .ok reached) :
    fs'.walk place parts = .ok reached := by
  -- a part is judged by its name; of the file system only the directory before it counts
  induction parts generalizing place with
  | nil => exact h
  | cons part parts ih =>
    simp only [walk] at h ⊢
    cases node : fs.node? place with
    | none => simp [node] at h
    | some found =>
      cases found with
      | file content => simp [node] at h
      | directory =>
        simp only [node] at h
        simp only [grows.directory place node]
        split at h
        next dot => simpa only [dot, if_true] using ih h
        next notDot =>
          rw [if_neg notDot]
          split at h
          next up => simpa only [up, if_true] using ih h
          next notUp =>
            rw [if_neg notUp]
            split at h
            next => cases h
            next fits => simpa only [fits, if_false] using ih h

theorem resolve_grows {fs fs' : FileSystem} (grows : Grows fs fs') {path : String} {base : Place}
    (h : fs.resolve path = .ok base) : fs'.resolve path = .ok base := by
  unfold resolve at h ⊢
  rw [grows.current]
  cases usable : isUsable path with
  | true =>
    rw [usable] at h
    exact walk_grows grows h
  | false => simpa [usable] using h

/-- Parts that name something in the directory before them. -/
def ArePlain (parts : List (List Char)) : Prop :=
  ∀ part ∈ parts, (part ≠ [] ∧ part ≠ ['.'] ∧ part ≠ ['.', '.']) ∧ '/' ∉ part

theorem IsPlain.arePlain {name : String} (plain : IsPlain name) :
    ArePlain (segments name.toList) :=
  fun part member => ⟨plain part member, slash_not_mem_segments _ part member⟩

theorem ArePlain.noSlash {parts : List (List Char)} (plain : ArePlain parts) : NoSlash parts :=
  fun part member => (plain part member).2

theorem names_of_plain {parts : List (List Char)} (plain : ArePlain parts) :
    names parts = parts.map String.ofList := by
  unfold names
  rw [List.filter_eq_self.mpr]
  intro part member
  simpa using (plain part member).1.1

/-- Plain parts lead down one by one, through directories only. -/
theorem walk_plain {fs : FileSystem} {place reached : Place} {parts : List (List Char)}
    (plain : ArePlain parts) (h : fs.walk place (names parts) = .ok reached) :
    reached = place ++ names parts ∧
      ∀ n < parts.length, fs.node? (place ++ (names parts).take n) = some .directory := by
  rw [names_of_plain plain] at h ⊢
  induction parts generalizing place with
  | nil => exact ⟨by simpa [walk] using h.symm, nofun⟩
  | cons part parts ih =>
    obtain ⟨⟨-, notDot, notUp⟩, -⟩ := plain part List.mem_cons_self
    have rest : ArePlain parts := fun p hp => plain p (List.mem_cons_of_mem _ hp)
    have dot : ¬String.ofList part = "." := fun equal =>
      notDot (by simpa using congrArg String.toList equal)
    have up : ¬String.ofList part = ".." := fun equal =>
      notUp (by simpa using congrArg String.toList equal)
    simp only [List.map_cons, walk, dot, up, if_false] at h
    split at h
    next => cases h
    next => cases h
    next directory =>
      split at h
      next => cases h
      next =>
        obtain ⟨rfl, below⟩ := ih rest h
        refine ⟨by simp, fun n bounded => ?_⟩
        -- no part leads to the place itself, the others to what is below the first part
        cases n with
        | zero => simpa using directory
        | succ n => simpa using below n (Nat.lt_of_succ_lt_succ bounded)

/-- Dropping idle parts from the end of a path does not change where it leads. -/
theorem walk_dropIdle {fs : FileSystem} {place reached : Place} (parts : List (List Char))
    (h : fs.walk place (names parts.reverse) = .ok reached) :
    fs.walk place (names (dropIdle parts).reverse) = .ok reached := by
  fun_induction dropIdle parts with
  | case1 => exact h
  | case2 first => exact h
  | case3 part rest more idle ih =>
    apply ih
    rw [List.reverse_cons, names_append, walk_append] at h
    cases before : fs.walk place (names rest.reverse) with
    | error trouble => simp [before] at h
    | ok middle =>
      simp only [before] at h
      simp only [isIdle, Bool.or_eq_true, decide_eq_true_eq] at idle
      -- an empty part gives no name, and a dot stays in the directory that it needs
      rcases idle with rfl | rfl
      · simpa [names, walk] using h
      · have dot : names [['.']] = ["."] := by decide
        simp only [dot, walk] at h
        split at h
        next => cases h
        next => cases h
        next => simpa using h
  | case4 part rest more busy => exact h

/-! ## Texts below an existing directory -/

def start (fs : FileSystem) (parts : List (List Char)) : Place :=
  if parts.head? = some [] then [] else fs.current

theorem resolve_ofSegments (fs : FileSystem) {parts : List (List Char)} (h : IsParts parts) :
    fs.resolve (ofSegments parts) =
      if isUsable (ofSegments parts) then fs.walk (fs.start parts) (names parts)
      else .error .blocked := by
  unfold resolve start
  rw [steps_ofSegments h, isAbsolute_ofSegments h, if_neg (ofSegments_ne_empty h)]
  cases isUsable (ofSegments parts) with
  | false => rfl
  | true => by_cases absolute : parts.head? = some [] <;> simp [absolute]

/-- Parts of a text that lead to an existing directory. -/
structure Leads (fs : FileSystem) (root : List (List Char)) (base : Place) : Prop where
  parts : IsParts root
  walk : fs.walk (fs.start root) (names root) = .ok base
  directory : fs.node? base = some .directory

theorem Leads.grows {fs fs' : FileSystem} {root : List (List Char)} {base : Place}
    (leads : Leads fs root base) (grows : Grows fs fs') : Leads fs' root base where
  parts := leads.parts
  walk := by
    have same : fs'.start root = fs.start root := by simp only [start, grows.current]
    rw [same]
    exact walk_grows grows leads.walk
  directory := grows.directory base leads.directory

def trim (parts : List (List Char)) : List (List Char) := (dropIdle parts.reverse).reverse

theorem dropIdle_cons_busy {part : List Char} (rest : List (List Char))
    (busy : part ≠ [] ∧ part ≠ ['.']) : dropIdle (part :: rest) = part :: rest := by
  cases rest with
  | nil => rfl
  | cons second more => simp [dropIdle, isIdle, busy]

private theorem dropIdle_kept (parts : List (List Char)) :
    ((dropIdle parts).getLast? = parts.getLast?) ∧ ∀ part ∈ dropIdle parts, part ∈ parts := by
  fun_induction dropIdle parts with
  | case1 => simp
  | case2 first => simp
  | case3 part rest more idle ih =>
    refine ⟨?_, fun p hp => List.mem_cons_of_mem _ (ih.2 p hp)⟩
    cases rest with
    -- the first part of a path is never dropped
    | nil => exact absurd rfl more
    | cons second rest => simpa using ih.1
  | case4 part rest more busy => simp

theorem Leads.trim {fs : FileSystem} {root : List (List Char)} {base : Place}
    (leads : Leads fs root base) : Leads fs (FileSystem.trim root) base := by
  obtain ⟨last, kept⟩ := dropIdle_kept root.reverse
  have head : (FileSystem.trim root).head? = root.head? := by
    simpa [FileSystem.trim] using last
  refine ⟨⟨?_, ?_⟩, ?_, leads.directory⟩
  · intro empty
    rw [empty] at head
    exact leads.parts.nonempty (List.head?_eq_none_iff.mp head.symm)
  · intro part member
    exact leads.parts.noSlash part (List.mem_reverse.mp (kept part (List.mem_reverse.mp member)))
  · have same : fs.start (FileSystem.trim root) = fs.start root := by simp only [start, head]
    rw [same]
    exact walk_dropIdle root.reverse (by simpa using leads.walk)

theorem Leads.isParts {fs : FileSystem} {root parts : List (List Char)} {base : Place}
    (leads : Leads fs root base) (noSlash : NoSlash parts) : IsParts (root ++ parts) :=
  leads.parts.append noSlash

/-- More parts are followed from the directory on. -/
theorem Leads.resolve_append {fs : FileSystem} {root parts : List (List Char)} {base : Place}
    (leads : Leads fs root base) (noSlash : NoSlash parts) :
    fs.resolve (ofSegments (root ++ parts)) =
      if isUsable (ofSegments (root ++ parts)) then fs.walk base (names parts)
      else .error .blocked := by
  rw [resolve_ofSegments fs (leads.isParts noSlash)]
  -- where a path starts is decided by its first part, which is one of the root's
  have same : fs.start (root ++ parts) = fs.start root := by
    obtain ⟨first, rest, rfl⟩ := List.exists_cons_of_ne_nil leads.parts.nonempty
    rfl
  rw [names_append, walk_append, same, leads.walk]

theorem Leads.resolve {fs : FileSystem} {root parts : List (List Char)} {base place : Place}
    (leads : Leads fs root base) (plain : ArePlain parts)
    (h : fs.resolve (ofSegments (root ++ parts)) = .ok place) :
    place = base ++ names parts ∧
      ∀ n < parts.length, fs.node? (base ++ (names parts).take n) = some .directory := by
  rw [leads.resolve_append plain.noSlash] at h
  split at h
  next => exact walk_plain plain h
  next => cases h

end TableExport.FileSystem
