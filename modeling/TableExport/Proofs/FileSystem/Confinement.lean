import TableExport.Proofs.FileSystem.Landing

/-!
# What opening a file can change

The file of a name is at the end of its trail, and opening and writing it changes places on that
trail only. The trail of a relative name stays below its directory exactly if the name never goes
up more often than it has gone down.
-/
namespace TableExport.FileSystem

/-- The places that a name joined to a directory leads through. -/
def reach (base : Place) (name : String) : List Place := trail (origin base name) (steps name)

/-- The place of the file of a name. -/
def destination (base : Place) (name : String) : Place := follow (origin base name) (steps name)

/-! ## Trails below a directory -/

/-- Whether parts, from so many directories further down, never go up above where they start. -/
def staysBelow : Nat → List String → Bool
  | _, [] => true
  | depth, part :: rest =>
    if part = "." then staysBelow depth rest
    else if part = ".." then
      match depth with
      | 0 => false
      | depth + 1 => staysBelow depth rest
    else staysBelow (depth + 1) rest

private theorem trail_cons_below {base above place : Place} {part : String} {rest : List String}
    (entered : enter place part = base ++ above) :
    (∀ other ∈ trail place (part :: rest), base <+: other) ↔
      ∀ other ∈ trail (base ++ above) rest, base <+: other := by
  rw [trail, entered, List.forall_mem_cons]
  exact and_iff_right (List.prefix_append ..)

/-- Parts that never go up too far lead through places below the directory, and only those do. The
root is an exception, as nothing is above it. -/
theorem staysBelow_iff {base : Place} (proper : base ≠ []) (above : Place) (parts : List String) :
    staysBelow above.length parts = true ↔
      ∀ place ∈ trail (base ++ above) parts, base <+: place := by
  induction parts generalizing above with
  | nil => exact ⟨fun _ => nofun, fun _ => rfl⟩
  | cons part rest ih =>
    unfold staysBelow
    split
    next dot =>
      have stays : enter (base ++ above) part = base ++ above := by simp [enter, dot]
      rw [trail_cons_below stays]
      exact ih above
    next notDot =>
      split
      next up =>
        have left : enter (base ++ above) part = (base ++ above).dropLast := by simp [enter, up]
        obtain rfl | ⟨front, last, rfl⟩ := List.eq_nil_or_concat above
        · -- from the directory itself two dots lead out of it
          rw [List.append_nil] at left
          refine ⟨nofun, fun all => ?_⟩
          have out := all _ List.mem_cons_self
          rw [List.append_nil, left] at out
          have short := out.length_le
          have positive := List.length_pos_iff.mpr proper
          rw [List.length_dropLast] at short
          omega
        · have left : enter (base ++ front.concat last) part = base ++ front := by
            rw [left, List.concat_eq_append, ← List.append_assoc, List.dropLast_concat]
          rw [trail_cons_below left, List.length_concat]
          exact ih front
      next notUp =>
        have down : enter (base ++ above) part = base ++ (above ++ [part]) := by
          simp [enter, notDot, notUp]
        rw [trail_cons_below down]
        simpa using ih (above ++ [part])

/-- A relative name that never goes up too far. -/
def Descends (name : String) : Prop := isAbsolute name = false ∧ staysBelow 0 (steps name) = true

instance (name : String) : Decidable (Descends name) :=
  inferInstanceAs (Decidable (isAbsolute name = false ∧ staysBelow 0 (steps name) = true))

theorem Descends.reach {name : String} (descends : Descends name) (base : Place) :
    ∀ place ∈ reach base name, base <+: place := by
  have start : origin base name = base := by simp [origin, descends.1]
  by_cases root : base = []
  · exact fun place _ => root ▸ List.nil_prefix
  · have below := (staysBelow_iff root [] (steps name)).mp descends.2
    rw [List.append_nil] at below
    unfold FileSystem.reach
    rwa [start]

/-! ## Changes at some places -/

/-- Nothing but these places has changed, and no directory is gone. -/
structure Confined (before : FileSystem) (places : List Place) (after : FileSystem) : Prop where
  grows : Grows before after
  node : ∀ place, after.node? place = before.node? place ∨ place ∈ places

namespace Confined
variable {a b c : FileSystem} {places more : List Place}

theorem refl (fs : FileSystem) (places : List Place) : Confined fs places fs :=
  ⟨.refl fs, fun _ => .inl rfl⟩

theorem trans (first : Confined a places b) (second : Confined b places c) :
    Confined a places c := by
  refine ⟨first.grows.trans second.grows, fun place => ?_⟩
  rcases second.node place with same | listed
  · rw [same]
    exact first.node place
  · exact .inr listed

theorem mono (confined : Confined a places b) (wider : places ⊆ more) : Confined a more b :=
  ⟨confined.grows, fun place => (confined.node place).imp_right fun listed => wider listed⟩

end Confined

theorem Paves.confined {fs fs' : FileSystem} {places : List Place} (paves : Paves fs places fs') :
    Confined fs places fs' :=
  ⟨paves.grows, fun place => (paves.node place).imp_right fun made => made.2.2⟩

/-! ## Files of any name -/

/-- A name whose last part names something, as that of a file does. -/
def EndsNamed (name : String) : Prop :=
  ∃ part, (segments name.toList).getLast? = some part ∧ isIdle part = false

/-- The last part of a text ends as the text does. -/
private theorem getLast?_segments {text : List Char} {c : Char} (ends : text.getLast? = some c)
    (inside : c ≠ '/') :
    ∃ part, (segments text).getLast? = some part ∧ part.getLast? = some c := by
  induction text with
  | nil => cases ends
  | cons d rest ih =>
    cases rest with
    | nil =>
      obtain rfl : d = c := by simpa using ends
      exact ⟨[d], by simp [segments, inside], rfl⟩
    | cons e rest =>
      obtain ⟨part, last, ended⟩ := ih (by simpa using ends)
      rw [segments]
      cases cut : segments (e :: rest) with
      | nil => exact absurd cut (segments_ne_nil _)
      | cons first more =>
        rw [cut] at last
        by_cases slash : d = '/'
        · exact ⟨part, by simpa [slash] using last, ended⟩
        · cases more with
          -- the only part so far gets one character more in front
          | nil =>
            obtain rfl : first = part := by simpa using last
            refine ⟨d :: first, by simp [slash], ?_⟩
            rw [List.getLast?_cons, ended]
            rfl
          | cons second more => exact ⟨part, by simpa [slash] using last, ended⟩

theorem endsNamed_of_getLast? {name : String} {c : Char} (ends : name.toList.getLast? = some c)
    (inside : c ≠ '/') (letter : c ≠ '.') : EndsNamed name := by
  obtain ⟨part, last, ended⟩ := getLast?_segments ends inside
  refine ⟨part, last, ?_⟩
  cases idle : isIdle part with
  | false => rfl
  | true =>
    simp only [isIdle, Bool.or_eq_true, decide_eq_true_eq] at idle
    obtain rfl | rfl := idle
    · cases ended
    · exact absurd (by simpa using ended.symm) letter

theorem EndsNamed.steps_ne_nil {name : String} (named : EndsNamed name) : steps name ≠ [] := by
  obtain ⟨part, ends, busy⟩ := named
  obtain ⟨front, cut⟩ := List.getLast?_eq_some_iff.mp ends
  simp [steps, cut, (busy_of_not_idle busy).1]

section Opened
variable {fs : FileSystem} {path name : String} {base : Place}

/-- The directories that a name asks for are on its trail. -/
theorem withParents_confined (resolved : fs.resolve path = .ok base)
    (directory : fs.node? base = some .directory) (named : EndsNamed name) :
    Confined fs (reach base name) (fs.withParents (join path name)) := by
  obtain ⟨root, parts, leads, noSlash, same, last, joined⟩ :=
    @exists_join fs path name base resolved directory
  obtain ⟨part, ends, busy⟩ := named
  obtain ⟨front, rfl⟩ := List.getLast?_eq_some_iff.mp (last.trans ends)
  rw [joined]
  refine (withParents_paves leads noSlash busy (List.forall_mem_nil _)).confined.mono ?_
  unfold reach
  rw [← same]
  exact trail_subset (names_front (List.prefix_append ..)) _

/-- A file that is opened, and then written, is at the end of the trail of its name. -/
theorem create?_confined {place : Place} {opened filled : FileSystem}
    (resolved : fs.resolve path = .ok base) (directory : fs.node? base = some .directory)
    (named : EndsNamed name)
    (h : (fs.withParents (join path name)).create? (join path name) = some (place, opened))
    (written : SameBut (some place) opened filled) :
    place = destination base name ∧ Confined fs (reach base name) filled := by
  have made := withParents_confined resolved directory named
  obtain ⟨root, parts, leads, noSlash, same, last, joined⟩ :=
    @exists_join fs path name base resolved directory
  obtain ⟨only, grows⟩ := create?_sameBut h written
  obtain ⟨found, -, -, -⟩ := create?_ok h
  rw [joined] at found
  have here := (leads.grows (joined ▸ made.grows)).resolve_follow noSlash found
  rw [same] at here
  refine ⟨here, made.trans ⟨grows, fun other => ?_⟩⟩
  by_cases opened : other = place
  · exact .inr (opened ▸ here ▸ follow_mem_trail named.steps_ne_nil _)
  · exact .inl (only.node other fun equal => opened (Option.some.inj equal).symm)

theorem landing_join (resolved : fs.resolve path = .ok base)
    (directory : fs.node? base = some .directory) (lands : fs.Lands (join path name)) :
    fs.landing (join path name) = destination base name := by
  obtain ⟨root, parts, leads, noSlash, same, -, joined⟩ :=
    @exists_join fs path name base resolved directory
  unfold destination
  rw [← same]
  exact leads.resolve_follow noSlash (joined ▸ lands.1)

end Opened

end TableExport.FileSystem
