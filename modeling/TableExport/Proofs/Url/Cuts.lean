import Mathlib
import TableExport.Proofs.Text.Trimming
import TableExport.Url.Parser

/-!
# Cutting texts

A text that is cut at separators falls into the parts that it was put together from, if no part
has a separator in it.
-/
namespace TableExport.Url

/-! ## At the first separator -/

section Mark
variable {mark : Char}

theorem span_at {front : List Char} (lacks : mark ∉ front) (back : List Char) :
    (front ++ mark :: back).span (· ≠ mark) = (front, mark :: back) :=
  span_front (fun c member => by simpa using ne_of_mem_of_not_mem member lacks) (by simp)

theorem span_without {cs : List Char} (lacks : mark ∉ cs) :
    cs.span (· ≠ mark) = (cs, []) :=
  span_all fun c member => by simpa using ne_of_mem_of_not_mem member lacks

theorem span_found {cs front back : List Char} {c : Char}
    (split : cs.span (· ≠ mark) = (front, c :: back)) :
    cs = front ++ mark :: back ∧ mark ∉ front := by
  rw [List.span_eq_takeWhile_dropWhile, Prod.mk.injEq] at split
  obtain ⟨rfl, rest⟩ := split
  have stop := List.head?_dropWhile_not (fun c => decide (c ≠ mark)) cs
  rw [rest] at stop
  obtain rfl : c = mark := by simpa using stop
  refine ⟨by rw [← rest, List.takeWhile_append_dropWhile], ?_⟩
  intro member
  simpa using List.mem_takeWhile_imp member

end Mark

/-! ## At every separator -/

section Every
variable {p : Char → Bool}

theorem splitOn_ne_nil (cs : List Char) : splitOn p cs ≠ [] := by
  cases cs with
  | nil => exact List.cons_ne_nil _ _
  | cons c rest =>
    unfold splitOn
    split
    · exact List.cons_ne_nil _ _
    · split <;> exact List.cons_ne_nil _ _

theorem splitOn_separator {c : Char} (separates : p c = true) (rest : List Char) :
    splitOn p (c :: rest) = [] :: splitOn p rest := by
  obtain ⟨first, more, same⟩ := List.exists_cons_of_ne_nil (@splitOn_ne_nil p rest)
  rw [splitOn, same]
  exact if_pos separates

theorem splitOn_other {c : Char} (other : p c = false) {rest first : List Char}
    {more : List (List Char)} (split : splitOn p rest = first :: more) :
    splitOn p (c :: rest) = (c :: first) :: more := by
  rw [splitOn, split]
  exact if_neg (by simp [other])

theorem splitOn_append (front : List Char) {c : Char} (separates : p c = true) (back : List Char) :
    splitOn p (front ++ c :: back) = splitOn p front ++ splitOn p back := by
  induction front with
  | nil => exact splitOn_separator separates back
  | cons d front ih =>
    obtain ⟨first, more, same⟩ := List.exists_cons_of_ne_nil (@splitOn_ne_nil p front)
    cases here : p d with
    | true => rw [List.cons_append, splitOn_separator here, splitOn_separator here, ih,
        List.cons_append]
    | false =>
      rw [List.cons_append, splitOn_other here same, List.cons_append]
      exact splitOn_other here (by rw [ih, same, List.cons_append])

theorem splitOn_whole {cs : List Char} (none : ∀ c ∈ cs, p c = false) : splitOn p cs = [cs] := by
  induction cs with
  | nil => rfl
  | cons c rest ih =>
    obtain ⟨here, later⟩ := List.forall_mem_cons.mp none
    exact splitOn_other here (ih later)

theorem splitOn_intercalate {c : Char} (separates : p c = true) {parts : List (List Char)}
    (some : parts ≠ []) (none : ∀ part ∈ parts, ∀ d ∈ part, p d = false) :
    splitOn p ([c].intercalate parts) = parts := by
  induction parts with
  | nil => exact absurd rfl some
  | cons part rest ih =>
    obtain ⟨here, later⟩ := List.forall_mem_cons.mp none
    cases rest with
    | nil =>
      rw [List.intercalate_singleton]
      exact splitOn_whole here
    | cons next rest =>
      rw [List.intercalate_cons_cons, List.append_assoc, List.singleton_append,
        splitOn_append _ separates, splitOn_whole here, ih (List.cons_ne_nil _ _) later]
      rfl

/-- Parts that stand after a separator each. -/
theorem splitOn_flatMap {c : Char} (separates : p c = true) {parts : List (List Char)}
    (none : ∀ part ∈ parts, ∀ d ∈ part, p d = false) :
    splitOn p (parts.flatMap (c :: ·)) = [] :: parts := by
  induction parts with
  | nil => rfl
  | cons part rest ih =>
    obtain ⟨here, later⟩ := List.forall_mem_cons.mp none
    rw [List.flatMap_cons, List.cons_append, splitOn_separator separates]
    cases rest with
    | nil => rw [List.flatMap_nil, List.append_nil, splitOn_whole here]
    | cons next rest =>
      have tail := ih later
      rw [List.flatMap_cons, List.cons_append, splitOn_separator separates] at tail
      rw [List.flatMap_cons, List.cons_append, splitOn_append _ separates, splitOn_whole here,
        (List.cons.inj tail).2]
      rfl

theorem flatMap_splitOn (mark : Char) (cs : List Char) :
    (splitOn (· = mark) cs).flatMap (mark :: ·) = mark :: cs := by
  induction cs with
  | nil => rfl
  | cons c rest ih =>
    obtain ⟨first, more, same⟩ := List.exists_cons_of_ne_nil (@splitOn_ne_nil (· = mark) rest)
    by_cases here : c = mark
    · rw [splitOn_separator (decide_eq_true here), List.flatMap_cons, ih, here]
      rfl
    · rw [splitOn_other (decide_eq_false here) same]
      rw [same, List.flatMap_cons, List.cons_append] at ih
      rw [List.flatMap_cons, List.cons_append, List.cons_append, (List.cons.inj ih).2]

theorem mem_splitOn {cs part : List Char} (member : part ∈ splitOn p cs) :
    ∀ c ∈ part, c ∈ cs ∧ p c = false := by
  induction cs generalizing part with
  | nil =>
    rw [List.mem_singleton.mp member]
    exact nofun
  | cons d rest ih =>
    obtain ⟨first, more, same⟩ := List.exists_cons_of_ne_nil (@splitOn_ne_nil p rest)
    have below {part : List Char} (member : part ∈ first :: more) :
        ∀ c ∈ part, c ∈ d :: rest ∧ p c = false := fun c inside =>
      ⟨List.mem_cons_of_mem _ (ih (same ▸ member) c inside).1, (ih (same ▸ member) c inside).2⟩
    cases here : p d with
    | true =>
      rw [splitOn_separator here, same] at member
      obtain rfl | member := List.mem_cons.mp member
      · exact nofun
      · exact below member
    | false =>
      rw [splitOn_other here same] at member
      obtain rfl | member := List.mem_cons.mp member
      · exact List.forall_mem_cons.mpr
          ⟨⟨List.mem_cons_self, here⟩, below List.mem_cons_self⟩
      · exact below (List.mem_cons_of_mem _ member)

end Every

end TableExport.Url
