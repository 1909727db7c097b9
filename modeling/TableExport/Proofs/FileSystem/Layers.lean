import TableExport.Proofs.FileSystem.Opening

/-!
# Files written below a directory

After files have been written below a directory the contents are those of before with
the written ones laid over them, and directories were made where names led through
them. Nothing else is changed.
-/
namespace TableExport.FileSystem

/-- `after` is `before` with contents written, in order, under names below `base`. -/
structure Overlaid (before : FileSystem) (base : Place) (writes : List (List String × Bytes))
    (after : FileSystem) : Prop where
  current : after.current = before.current
  content : after.content? =
    overlay before.content? (writes.map fun (name, content) => (base ++ name, content))
  directory : ∀ place, after.node? place = some .directory ↔
    before.node? place = some .directory ∨
      ∃ write ∈ writes, ∃ n, 0 < n ∧ n < write.1.length ∧ place = base ++ write.1.take n

namespace Overlaid
variable {a b c : FileSystem} {base : Place} {xs ys : List (List String × Bytes)}

theorem refl (fs : FileSystem) (base : Place) : Overlaid fs base [] fs :=
  ⟨rfl, rfl, by simp⟩

theorem trans (first : Overlaid a base xs b) (second : Overlaid b base ys c) :
    Overlaid a base (xs ++ ys) c where
  current := second.current.trans first.current
  content := by rw [second.content, first.content, List.map_append, overlay_append]
  directory := fun place => by
    rw [second.directory, first.directory]
    simp only [List.mem_append, or_and_right, exists_or, or_assoc]

theorem grows (overlaid : Overlaid a base xs b) : Grows a b :=
  ⟨overlaid.current, fun place h => (overlaid.directory place).mpr (.inl h)⟩

theorem filled {name : List String} {old new : Bytes} (written : Overlaid a base [(name, old)] b)
    (content : c.content? (base ++ name) = some new) (same : SameBut (some (base ++ name)) b c) :
    Overlaid a base [(name, new)] c := by
  have other {place : Place} (differs : place ≠ base ++ name) : c.node? place = b.node? place :=
    same.node place fun equal => differs (Option.some.inj equal).symm
  refine ⟨same.current.trans written.current, funext fun place => ?_, fun place => ?_⟩
  · -- what the file held in between is laid under its final content
    by_cases here : place = base ++ name
    · rw [here, content]
      exact (overlay_of_last a.content? [] [] (base ++ name) new (by simp)).symm
    · have before := congrFun written.content place
      rw [content?_congr (other here), before]
      simp [overlay, here]
  · have steps := written.directory place
    by_cases here : place = base ++ name
    · -- the file is a file before and after
      have held : b.content? place = some old := by
        rw [written.content, here]
        exact overlay_of_last a.content? [] [] (base ++ name) old (by simp)
      rw [node?_of_content? held] at steps
      rw [here, node?_of_content? content]
      simpa [here] using steps
    · rw [other here, steps]
      simp

/-! What stands below the directory afterwards. -/

variable {writes : List (List String × Bytes)}

theorem node?_written (overlaid : Overlaid a base writes b) {name : List String}
    (member : name ∈ writes.map Prod.fst) :
    b.node? (base ++ name) = (overlay (fun _ => none) writes name).map .file := by
  obtain ⟨content, -, held⟩ := overlay_of_mem (fun _ => none) writes name member
  have apart : Function.Injective (base ++ · : List String → Place) :=
    fun _ _ same => List.append_cancel_left same
  have laid : b.content? (base ++ name) = some content := by
    rw [overlaid.content, overlay_map apart, ← held]
    exact overlay_congr fun absent => absurd member absent
  rw [held, node?_of_content? laid, Option.map_some]

theorem node?_elsewhere (overlaid : Overlaid a base writes b) {place : Place}
    (off : ∀ write ∈ writes, ∀ n, 0 < n → place ≠ base ++ write.1.take n) :
    b.node? place = a.node? place := by
  apply node?_ext
  · rw [overlaid.content]
    apply overlay_of_absent
    intro laid member same
    obtain ⟨write, written, rfl⟩ := List.mem_map.mp member
    refine off write written (write.1.length + 1) (Nat.succ_pos _) ?_
    rw [List.take_of_length_le (Nat.le_succ _)]
    exact same.symm
  · rw [overlaid.directory]
    refine ⟨fun found => found.resolve_right ?_, .inl⟩
    rintro ⟨write, written, n, positive, -, here⟩
    exact off write written n positive here

/-- What is written a second time is there already. -/
theorem again (first : Overlaid a base writes b) (second : Overlaid b base writes c) :
    SameBut none b c where
  current := second.current
  node place _ := by
    apply node?_ext
    · rw [second.content, first.content, overlay_again]
    · rw [second.directory]
      exact or_iff_left_of_imp fun made => (first.directory place).mpr (.inr made)

/-- What stood at the names that are written, or on the way to them, does not show. -/
theorem agree {a' b' : FileSystem} {base' : Place} {place : List String}
    (first : Overlaid a base writes a') (second : Overlaid b base' writes b')
    (beside : (∀ write ∈ writes, ∀ n, 0 < n → place ≠ write.1.take n) →
      a.node? (base ++ place) = b.node? (base' ++ place)) :
    a'.node? (base ++ place) = b'.node? (base' ++ place) := by
  by_cases written : place ∈ writes.map Prod.fst
  · rw [first.node?_written written, second.node?_written written]
  by_cases onTheWay : ∃ write ∈ writes, ∃ n, 0 < n ∧ place = write.1.take n
  · -- a directory was made there for a longer name, if it was not there already
    obtain ⟨write, member, n, positive, rfl⟩ := onTheWay
    have short : n < write.1.length := by
      refine Nat.lt_of_not_le fun long => written ?_
      rw [List.take_of_length_le long]
      exact List.mem_map_of_mem member
    rw [(first.directory _).mpr (.inr ⟨write, member, n, positive, short, rfl⟩),
      (second.directory _).mpr (.inr ⟨write, member, n, positive, short, rfl⟩)]
  · have off write (member : write ∈ writes) n (positive : 0 < n) : place ≠ write.1.take n :=
      fun here => onTheWay ⟨write, member, n, positive, here⟩
    rw [first.node?_elsewhere fun write member n positive here =>
        off write member n positive (List.append_cancel_left here),
      second.node?_elsewhere fun write member n positive here =>
        off write member n positive (List.append_cancel_left here)]
    exact beside off

end Overlaid

theorem withParents_deepens {fs : FileSystem} {root front : List (List Char)} {part : List Char}
    {base : Place} (leads : Leads fs root base) (plain : ArePlain (front ++ [part])) :
    Deepens fs base (names front) (fs.withParents (ofSegments (root ++ (front ++ [part])))) := by
  obtain ⟨⟨named, notDot, -⟩, -⟩ := plain part (by simp)
  have busy : isIdle part = false := by simp [isIdle, named, notDot]
  have paves := withParents_paves leads plain.noSlash busy (List.forall_mem_nil _)
  exact paves.deepens fun p member => plain p (List.mem_append_left _ member)

/-- A file opened under a plain name is empty, whatever was there before. -/
theorem create?_overlaid {fs fs' : FileSystem} {path name : String} {base place : Place}
    (resolved : fs.resolve path = .ok base) (directory : fs.node? base = some .directory)
    (plain : IsPlain name)
    (h : (fs.withParents (join path name)).create? (join path name) = some (place, fs')) :
    place = base ++ steps name ∧ Overlaid fs base [(steps name, [])] fs' := by
  obtain ⟨root, leads, joined⟩ := join_below resolved directory (isAbsolute_of_plain plain)
  have parts := plain.arePlain
  -- the last part is the file's, those in front of it are directories to be made
  rw [joined] at h
  rw [steps_eq_names]
  obtain ⟨front, part, last⟩ : ∃ front part, segments name.toList = front ++ [part] :=
    ⟨_, _, (List.dropLast_concat_getLast (segments_ne_nil _)).symm⟩
  rw [last] at h parts ⊢
  have deepens := withParents_deepens leads parts
  obtain ⟨found, -, free, rfl⟩ := create?_ok h
  obtain ⟨rfl, onTheWay⟩ := (leads.grows deepens.grows).resolve parts found
  generalize fs.withParents (ofSegments (root ++ (front ++ [part]))) = made at *
  have split : names (front ++ [part]) = names front ++ [String.ofList part] := by
    have single : ArePlain [part] := fun p member => parts p (List.mem_append_right _ member)
    rw [names_append, names_of_plain single]
    rfl
  have below : base ++ names (front ++ [part]) ≠ [] := by simp [split]
  refine ⟨rfl, (current_set ..).trans deepens.current, funext fun other => ?_, fun other => ?_⟩
  · by_cases here : other = base ++ names (front ++ [part])
    · simp [overlay, content?, node?_set _ _ _ _ below, here]
    · have same := content?_congr ((node?_set made _ other (.file []) below).trans (if_neg here))
      simp [overlay, here, same, deepens.content? other]
  · rw [node?_set _ _ _ _ below]
    constructor
    · intro found
      split at found
      next => cases found
      next =>
        rcases deepens.node other with same | ⟨-, -, n, positive, bounded, here⟩
        · exact .inl (same ▸ found)
        · refine .inr ⟨_, List.mem_cons_self, n, positive, ?_, ?_⟩
          · simp only [split, List.length_append, List.length_singleton]
            omega
          · rw [here, split, List.take_append_of_le_length bounded]
    · intro found
      -- the file could be opened, so every directory on the way to it is there by then
      have kept : made.node? other = some .directory := by
        rcases found with old | ⟨write, member, n, -, bounded, rfl⟩
        · exact deepens.grows.directory other old
        · obtain rfl := List.mem_singleton.mp member
          refine onTheWay n ?_
          simpa [names_of_plain parts] using bounded
      rw [if_neg, kept]
      rintro rfl
      exact free kept

/-! ## Directories made for nothing -/

/-- Contents were written below `base`, and directories were made for these names only. -/
structure Spread (before : FileSystem) (base : Place) (names : List (List String))
    (writes : List (List String × Bytes)) (after : FileSystem) : Prop where
  grows : Grows before after
  content : after.content? =
    overlay before.content? (writes.map fun (name, content) => (base ++ name, content))
  directory : ∀ place, after.node? place = some .directory →
    before.node? place = some .directory ∨
      ∃ name ∈ names, ∃ n, 0 < n ∧ n < name.length ∧ place = base ++ name.take n

namespace Spread
variable {a b c : FileSystem} {base : Place} {names : List (List String)}
  {writes : List (List String × Bytes)}

theorem of_overlaid (overlaid : Overlaid a base writes b)
    (named : ∀ write ∈ writes, write.1 ∈ names) : Spread a base names writes b where
  grows := overlaid.grows
  content := overlaid.content
  directory place found := by
    rcases (overlaid.directory place).mp found with old | ⟨write, member, way⟩
    · exact .inl old
    · exact .inr ⟨write.1, named write member, way⟩

/-- Directories made on the way to one of the names change nothing else. -/
theorem deepens {front : List String} {last : String} (spread : Spread a base names writes b)
    (deepens : Deepens b base front c) (named : front ++ [last] ∈ names) :
    Spread a base names writes c where
  grows := spread.grows.trans deepens.grows
  content := by rw [← spread.content, funext deepens.content?]
  directory place found := by
    rcases deepens.node place with same | ⟨-, -, n, positive, bounded, here⟩
    · exact spread.directory place (same ▸ found)
    · refine .inr ⟨_, named, n, positive, ?_, ?_⟩
      · simpa [Nat.lt_succ_iff] using bounded
      · rw [here, List.take_append_of_le_length bounded]

end Spread

/-- The directories that a plain name asks for are on the way to it. -/
theorem withParents_join {fs : FileSystem} {path name : String} {base : Place}
    (resolved : fs.resolve path = .ok base) (directory : fs.node? base = some .directory)
    (plain : IsPlain name) :
    ∃ front last, steps name = front ++ [last] ∧
      Deepens fs base front (fs.withParents (join path name)) := by
  obtain ⟨root, leads, joined⟩ := join_below resolved directory (isAbsolute_of_plain plain)
  have parts := plain.arePlain
  rw [joined, steps_eq_names]
  obtain ⟨front, part, last⟩ : ∃ front part, segments name.toList = front ++ [part] :=
    ⟨_, _, (List.dropLast_concat_getLast (segments_ne_nil _)).symm⟩
  rw [last] at parts ⊢
  have single : ArePlain [part] := fun p member => parts p (List.mem_append_right _ member)
  refine ⟨names front, String.ofList part, ?_, withParents_deepens leads parts⟩
  rw [names_append, names_of_plain single]
  rfl

/-! ## Different names -/

theorem steps_injective {name other : String} (plain : IsPlain name) (otherPlain : IsPlain other)
    (same : steps name = steps other) : name = other := by
  have nonempty : ∀ {text : String}, IsPlain text → text ≠ "" := by
    rintro text empty rfl
    exact (empty [] (by decide)).1 rfl
  rw [steps_eq_names, steps_eq_names, names_of_plain plain.arePlain,
    names_of_plain otherPlain.arePlain] at same
  have parts := (List.map_inj_right fun _ _ => String.ofList_injective).mp same
  rw [← ofSegments_segments name (nonempty plain), parts,
    ofSegments_segments other (nonempty otherPlain)]

/-- Different plain names lead to different places. -/
theorem eq_of_same_resolve {fs : FileSystem} {path name other : String} {base place : Place}
    (resolved : fs.resolve path = .ok base) (directory : fs.node? base = some .directory)
    (plain : IsPlain name) (otherPlain : IsPlain other)
    (h : fs.resolve (join path name) = .ok place)
    (same : fs.resolve (join path other) = .ok place) : name = other := by
  have lead : ∀ {text : String}, IsPlain text → fs.resolve (join path text) = .ok place →
      place = base ++ steps text := by
    intro text textPlain found
    obtain ⟨root, leads, joined⟩ := join_below resolved directory (isAbsolute_of_plain textPlain)
    rw [joined] at found
    exact (leads.resolve textPlain.arePlain found).1
  exact steps_injective plain otherPlain
    (List.append_cancel_left ((lead plain h).symm.trans (lead otherPlain same)))

end TableExport.FileSystem
