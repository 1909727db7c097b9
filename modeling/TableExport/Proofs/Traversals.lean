import Mathlib.Data.List.Forall2

/-!
# Traversals

A traversal of a list succeeds if it does so at each element, and then gives their results in order.
Otherwise the first element that fails decides, and what comes behind it does not count.
-/
namespace TableExport

variable {α β γ ε : Type}

/-! ## First failures -/

/-- Either all elements pass, or one is the first that does not. -/
theorem forall_or_first (passes : α → Prop) (items : List α) :
    (∀ item ∈ items, passes item) ∨ ∃ front item back, items = front ++ item :: back ∧
      (∀ earlier ∈ front, passes earlier) ∧ ¬passes item := by
  induction items with
  | nil => exact .inl nofun
  | cons item rest ih =>
    by_cases here : passes item
    · obtain all | ⟨front, first, back, rfl, before, fails⟩ := ih
      · exact .inl (List.forall_mem_cons.mpr ⟨here, all⟩)
      · exact .inr ⟨item :: front, first, back, rfl, List.forall_mem_cons.mpr ⟨here, before⟩, fails⟩
    · exact .inr ⟨[], item, rest, rfl, nofun, here⟩

/-- An element of two lists put together is in the second, behind all of the first, or else in
the first. -/
theorem split_cons {early late front back : List α} {item : α}
    (split : early ++ late = front ++ item :: back) :
    (∃ between, front = early ++ between ∧ late = between ++ item :: back) ∨
      ∃ tail, early = front ++ item :: tail := by
  obtain later | ⟨tail, here, behind⟩ := List.append_eq_append_iff.mp split
  · exact .inl later
  · obtain _ | ⟨first, tail⟩ := tail
    · exact .inl ⟨[], by simpa using here.symm, behind.symm⟩
    · obtain ⟨rfl, -⟩ := List.cons.inj behind
      exact .inr ⟨tail, here⟩

/-! ## Results that may be errors -/

theorem mapM_ok_iff {f : α → Except ε β} {items : List α} {results : List β} :
    items.mapM f = .ok results ↔
      List.Forall₂ (fun item result => f item = .ok result) items results := by
  constructor
  · intro ended
    induction items generalizing results with
    | nil =>
      cases ended
      exact .nil
    | cons item rest ih =>
      rw [List.mapM_cons] at ended
      cases here : f item with
      | error fault => simp [here, bind, Except.bind] at ended
      | ok result =>
        cases later : rest.mapM f with
        | error fault => simp [here, later, bind, Except.bind] at ended
        | ok found =>
          simp only [here, later, bind, Except.bind, pure, Except.pure, Except.ok.injEq] at ended
          subst ended
          exact .cons here (ih later)
  · intro all
    induction all with
    | nil => rfl
    | cons head _ ih =>
      rw [List.mapM_cons, head, ih]
      rfl

theorem exists_mapM_ok {f : α → Except ε β} {items : List α}
    (all : ∀ item ∈ items, ∃ result, f item = .ok result) :
    ∃ results, List.Forall₂ (fun item result => f item = .ok result) items results := by
  induction items with
  | nil => exact ⟨[], .nil⟩
  | cons item rest ih =>
    obtain ⟨⟨result, here⟩, later⟩ := List.forall_mem_cons.mp all
    obtain ⟨results, there⟩ := ih later
    exact ⟨result :: results, .cons here there⟩

theorem length_of_mapM {f : α → Except ε β} {items : List α} {results : List β}
    (ended : items.mapM f = .ok results) : results.length = items.length :=
  (mapM_ok_iff.mp ended).length_eq.symm

/-- A traversal ends with the first failure; what comes after it does not count. -/
theorem mapM_error {f : α → Except ε β} {front : List α} {item : α} {fault : ε}
    (before : ∀ earlier ∈ front, ∃ result, f earlier = .ok result) (here : f item = .error fault)
    (back : List α) : (front ++ item :: back).mapM f = .error fault := by
  induction front with
  | nil =>
    rw [List.nil_append, List.mapM_cons, here]
    rfl
  | cons earlier front ih =>
    obtain ⟨⟨result, first⟩, later⟩ := List.forall_mem_cons.mp before
    rw [List.cons_append, List.mapM_cons, first, ih later]
    rfl

theorem exists_of_mapM_error {f : α → Except ε β} {items : List α} {fault : ε}
    (failed : items.mapM f = .error fault) : ∃ item ∈ items, f item = .error fault := by
  induction items with
  | nil => cases failed
  | cons item rest ih =>
    rw [List.mapM_cons] at failed
    cases here : f item with
    | error other =>
      rw [here] at failed
      cases failed
      exact ⟨item, List.mem_cons_self, here⟩
    | ok result =>
      rw [here] at failed
      cases later : rest.mapM f with
      | error other =>
        simp only [later, bind, Except.bind] at failed
        cases failed
        obtain ⟨found, member, fails⟩ := ih later
        exact ⟨found, List.mem_cons_of_mem _ member, fails⟩
      | ok results =>
        simp only [later, bind, Except.bind, pure, Except.pure] at failed
        cases failed

/-! ## Results that may be absent -/

theorem mapM_some_iff {f : α → Option β} {items : List α} {results : List β} :
    items.mapM f = some results ↔
      List.Forall₂ (fun item result => f item = some result) items results := by
  constructor
  · intro ended
    induction items generalizing results with
    | nil =>
      cases ended
      exact .nil
    | cons item rest ih =>
      simp only [List.mapM_cons, Option.bind_eq_bind, Option.bind_eq_some_iff, Option.pure_def,
        Option.some.injEq] at ended
      obtain ⟨result, here, found, later, rfl⟩ := ended
      exact .cons here (ih later)
  · intro all
    induction all with
    | nil => rfl
    | cons head _ ih =>
      rw [List.mapM_cons, head, ih]
      rfl

theorem mapM_id_iff {items : List (Option α)} {results : List α} :
    items.mapM id = some results ↔ items = results.map some := by
  have pairs : List.Forall₂ (fun item result => id item = some result) items results ↔
      List.Forall₂ (· = ·) items (results.map some) := List.forall₂_map_right_iff.symm
  rw [mapM_some_iff, pairs, List.forall₂_eq_eq_eq]

/-- A reading that undoes a writing reads a list of what has been written, and no other. -/
theorem mapM_reads_iff {read : α → Option β} {put : γ → α} {give : γ → β}
    (each : ∀ a b, read a = some b ↔ ∃ c, a = put c ∧ b = give c) {as : List α} {bs : List β} :
    as.mapM read = some bs ↔ ∃ cs : List γ, as = cs.map put ∧ bs = cs.map give := by
  simp only [mapM_some_iff, each]
  constructor
  · intro all
    induction all with
    | nil => exact ⟨[], rfl, rfl⟩
    | cons head _ ih =>
      obtain ⟨c, rfl, rfl⟩ := head
      obtain ⟨cs, rfl, rfl⟩ := ih
      exact ⟨c :: cs, rfl, rfl⟩
  · rintro ⟨cs, rfl, rfl⟩
    rw [List.forall₂_map_left_iff, List.forall₂_map_right_iff, List.forall₂_same]
    exact fun c _ => ⟨c, rfl, rfl⟩

end TableExport
