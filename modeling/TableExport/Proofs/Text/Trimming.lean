import Mathlib

/-!
# Trimming

A text is cut at the first of the characters that end its front. What is left after trimming a text
at both ends stands in the text between characters that are trimmed, and neither of its own ends is
one of them.
-/
namespace TableExport

section First
variable {α : Type} {p : α → Bool}

theorem takeWhile_front {front back : List α} (all : ∀ a ∈ front, p a = true)
    (stop : ∀ a ∈ back.head?, p a = false) : (front ++ back).takeWhile p = front := by
  rw [List.takeWhile_append_of_pos all]
  cases back with
  | nil => simp
  | cons a back => simp [stop a rfl]

theorem dropWhile_front {front back : List α} (all : ∀ a ∈ front, p a = true)
    (stop : ∀ a ∈ back.head?, p a = false) : (front ++ back).dropWhile p = back := by
  rw [List.dropWhile_append_of_pos all]
  cases back with
  | nil => simp
  | cons a back => simp [stop a rfl]

theorem span_front {front back : List α} (all : ∀ a ∈ front, p a = true)
    (stop : ∀ a ∈ back.head?, p a = false) : (front ++ back).span p = (front, back) := by
  rw [List.span_eq_takeWhile_dropWhile, takeWhile_front all stop, dropWhile_front all stop]

theorem span_all {cs : List α} (all : ∀ a ∈ cs, p a = true) : cs.span p = (cs, []) := by
  simpa using @span_front α p cs [] all nofun

end First

namespace Text
variable {p : Char → Bool}

/-- A text with characters around it that are trimmed. -/
def Padded (p : Char → Bool) (text core : List Char) : Prop :=
  ∃ before after, text = before ++ core ++ after ∧ (∀ c ∈ before, p c = true) ∧
    ∀ c ∈ after, p c = true

/-- A text whose ends are not trimmed. -/
def Solid (p : Char → Bool) (core : List Char) : Prop :=
  (∀ c ∈ core.head?, p c = false) ∧ ∀ c ∈ core.getLast?, p c = false

theorem exists_dropWhile (cs : List Char) :
    ∃ before, cs = before ++ cs.dropWhile p ∧ ∀ c ∈ before, p c = true :=
  ⟨cs.takeWhile p, List.takeWhile_append_dropWhile.symm, fun _ => List.mem_takeWhile_imp⟩

theorem exists_rdropWhile (cs : List Char) :
    ∃ after, cs = cs.rdropWhile p ++ after ∧ ∀ c ∈ after, p c = true := by
  obtain ⟨after, whole, blanks⟩ := @exists_dropWhile p cs.reverse
  refine ⟨after.reverse, ?_, fun c member => blanks c (List.mem_reverse.mp member)⟩
  rw [List.rdropWhile, ← List.reverse_append, ← whole, List.reverse_reverse]

theorem padded_trim (text : List Char) : Padded p text ((text.dropWhile p).rdropWhile p) := by
  obtain ⟨before, front, blanks⟩ := @exists_dropWhile p text
  obtain ⟨after, back, more⟩ := @exists_rdropWhile p (text.dropWhile p)
  exact ⟨before, after, by rw [List.append_assoc, ← back, ← front], blanks, more⟩

theorem dropWhile_of_head {cs more : List Char} (present : cs ≠ [])
    (head : ∀ c ∈ cs.head?, p c = false) : (cs ++ more).dropWhile p = cs ++ more := by
  obtain ⟨c, rest, rfl⟩ := List.exists_cons_of_ne_nil present
  exact List.dropWhile_cons_of_neg (by simp [head c rfl])

/-- Of a text with characters behind it that are trimmed, nothing is trimmed from its own end. -/
theorem rdropWhile_back {core after : List Char} (last : ∀ c ∈ core.getLast?, p c = false)
    (trimmed : ∀ c ∈ after, p c = true) : (core ++ after).rdropWhile p = core := by
  have back := @dropWhile_front _ p after.reverse core.reverse
    (fun c member => trimmed c (List.mem_reverse.mp member)) (by simpa using last)
  rw [List.rdropWhile, List.reverse_append, back, List.reverse_reverse]

/-- They are what is taken from the end. -/
theorem rtakeWhile_back {core after : List Char} (last : ∀ c ∈ core.getLast?, p c = false)
    (taken : ∀ c ∈ after, p c = true) : (core ++ after).rtakeWhile p = after := by
  have back := @takeWhile_front _ p after.reverse core.reverse
    (fun c member => taken c (List.mem_reverse.mp member)) (by simpa using last)
  rw [List.rtakeWhile, List.reverse_append, back, List.reverse_reverse]

/-- Characters that are trimmed make no difference behind a text. -/
theorem rdropWhile_append (cs : List Char) {after : List Char}
    (trimmed : ∀ c ∈ after, p c = true) : (cs ++ after).rdropWhile p = cs.rdropWhile p := by
  rw [List.rdropWhile, List.reverse_append,
    List.dropWhile_append_of_pos fun c member => trimmed c (List.mem_reverse.mp member)]
  rfl

theorem rdropWhile_eq {core : List Char} (last : ∀ c ∈ core.getLast?, p c = false) :
    core.rdropWhile p = core := by
  have back := @rdropWhile_back p core [] last nofun
  rwa [List.append_nil] at back

theorem head_dropWhile (cs : List Char) : ∀ c ∈ (cs.dropWhile p).head?, p c = false := by
  intro c first
  have other := List.head?_dropWhile_not p cs
  rw [first] at other
  simpa using other

theorem last_rdropWhile (cs : List Char) : ∀ c ∈ (cs.rdropWhile p).getLast?, p c = false := by
  intro c last
  rw [List.rdropWhile, List.getLast?_reverse] at last
  exact head_dropWhile _ c last

/-- What is around a text is trimmed, and nothing of the text. -/
theorem trim_of_padded {text core : List Char} (padded : Padded p text core) (present : core ≠ [])
    (solid : Solid p core) : (text.dropWhile p).rdropWhile p = core := by
  obtain ⟨before, after, rfl, front, back⟩ := padded
  rw [List.append_assoc, List.dropWhile_append_of_pos front, dropWhile_of_head present solid.1,
    rdropWhile_back solid.2 back]

theorem solid_trim (text : List Char) : Solid p ((text.dropWhile p).rdropWhile p) := by
  refine ⟨fun c first => ?_, last_rdropWhile _⟩
  obtain ⟨after, whole⟩ := List.rdropWhile_prefix p (l := text.dropWhile p)
  refine head_dropWhile text c ?_
  rw [← whole, List.head?_append, Option.mem_def.mp first]
  rfl

end Text

end TableExport
