import TableExport.Proofs.FileSystem.Overlay

/-!
# Paths below a directory

A name is plain if each of its parts names something in the directory before it. The
text of a path below a directory is taken apart here, and following it is seen to lead
from the place of that directory through the parts of the name.
-/
namespace TableExport.FileSystem

/-- A relative name none of whose parts is empty, one dot or two dots. -/
def IsPlain (name : String) : Prop :=
  ∀ part ∈ segments name.toList, part ≠ [] ∧ part ≠ ['.'] ∧ part ≠ ['.', '.']

instance (name : String) : Decidable (IsPlain name) :=
  inferInstanceAs (Decidable (∀ part ∈ segments name.toList, _))

/-! ## The parts of a text -/

theorem segments_eq_splitOn (text : List Char) : segments text = text.splitOn '/' := by
  induction text with
  | nil => rfl
  | cons c rest ih =>
    rw [segments, ih, List.splitOn_cons_eq_if_modifyHead]
    cases parts : rest.splitOn '/' with
    | nil => exact absurd parts (List.splitOn_ne_nil _ _)
    | cons first more => by_cases slash : c = '/' <;> simp [slash]

theorem segments_ne_nil (text : List Char) : segments text ≠ [] := by
  rw [segments_eq_splitOn]
  exact List.splitOn_ne_nil _ _

theorem segments_append (xs ys : List Char) :
    segments (xs ++ '/' :: ys) = segments xs ++ segments ys := by
  simp only [segments_eq_splitOn, List.splitOn_append_cons_self]

theorem slash_not_mem_segments (text : List Char) : ∀ part ∈ segments text, '/' ∉ part := by
  induction text with
  | nil => simp [segments]
  | cons c rest ih =>
    rw [segments]
    cases parts : segments rest with
    | nil => exact absurd parts (segments_ne_nil rest)
    | cons first more =>
      rw [parts] at ih
      have tail : ∀ part ∈ more, '/' ∉ part := fun part h => ih part (List.mem_cons_of_mem _ h)
      by_cases slash : c = '/'
      · simpa [slash] using ih
      · have differs : '/' ≠ c := fun equal => slash equal.symm
        simp only [slash, if_false, List.mem_cons, forall_eq_or_imp, differs, false_or]
        exact ⟨ih first List.mem_cons_self, tail⟩

/-- The names that parts contribute to a path. Empty parts contribute nothing. -/
def names (parts : List (List Char)) : List String :=
  (parts.filter (· ≠ [])).map String.ofList

theorem steps_eq_names (path : String) : steps path = names (segments path.toList) := rfl

theorem names_append (xs ys : List (List Char)) : names (xs ++ ys) = names xs ++ names ys := by
  simp [names]

/-- Parts without a slash, as a text is cut into. -/
def NoSlash (parts : List (List Char)) : Prop := ∀ part ∈ parts, '/' ∉ part

/-- Parts that stand for a path text: at least one, and no slash inside. -/
structure IsParts (parts : List (List Char)) : Prop where
  nonempty : parts ≠ []
  noSlash : ∀ part ∈ parts, '/' ∉ part

theorem isParts_segments (text : List Char) : IsParts (segments text) :=
  ⟨segments_ne_nil text, slash_not_mem_segments text⟩

theorem IsParts.append {xs ys : List (List Char)} (hx : IsParts xs)
    (hy : ∀ part ∈ ys, '/' ∉ part) : IsParts (xs ++ ys) :=
  ⟨by simp [hx.nonempty], fun part member =>
    (List.mem_append.mp member).elim (hx.noSlash part) (hy part)⟩

/-- The text of parts is cut into the same parts again. A single empty part is the root,
which has an empty part on both sides of its slash. -/
theorem segments_ofSegments {parts : List (List Char)} (h : IsParts parts) :
    segments (ofSegments parts).toList = if parts = [[]] then [[], []] else parts := by
  unfold ofSegments
  split
  next => decide
  next => rw [String.toList_ofList, segments_eq_splitOn, List.splitOn_intercalate _ h.noSlash h.nonempty]

theorem steps_ofSegments {parts : List (List Char)} (h : IsParts parts) :
    steps (ofSegments parts) = names parts := by
  rw [steps_eq_names, segments_ofSegments h]
  split
  next root => rw [root]; decide
  next => rfl

theorem ofSegments_segments (path : String) (h : path ≠ "") :
    ofSegments (segments path.toList) = path := by
  have whole : ['/'].intercalate (segments path.toList) = path.toList := by
    rw [segments_eq_splitOn, List.intercalate_splitOn]
  unfold ofSegments
  split
  next root =>
    rw [root] at whole
    exact absurd (String.toList_inj.mp (whole.symm.trans rfl)) h
  next => rw [whole, String.ofList_toList]

theorem isAbsolute_ofSegments {parts : List (List Char)} (h : IsParts parts) :
    isAbsolute (ofSegments parts) = decide (parts.head? = some []) := by
  obtain ⟨first, rest, rfl⟩ := List.exists_cons_of_ne_nil h.nonempty
  have noSlash := h.noSlash first List.mem_cons_self
  unfold isAbsolute ofSegments
  cases first with
  | nil =>
    cases rest with
    -- a single empty part is written as the root
    | nil => decide
    | cons second more => simp [List.intercalate_cons_cons]
  | cons c cs =>
    have differs : ¬c = '/' := fun equal => noSlash (by simp [equal])
    cases rest with
    | nil => simp [differs]
    | cons second more => simp [List.intercalate_cons_cons, differs]

theorem ofSegments_ne_empty {parts : List (List Char)} (h : IsParts parts) :
    ofSegments parts ≠ "" := by
  intro empty
  have cut := segments_ofSegments h
  rw [empty] at cut
  -- the empty text has one empty part, which would be the root's
  split at cut
  next => exact absurd cut (by decide)
  next other => exact other cut.symm

end TableExport.FileSystem
