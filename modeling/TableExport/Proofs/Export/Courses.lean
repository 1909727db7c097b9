/-!
# Courses of steps

What a step does is planned as a list of units. A step that succeeds has passed all units
of its plan. A step that fails has passed those in front of one that broke. Plans are put
together as the steps are.
-/
namespace TableExport

/-- How units lead from state to state: they are passed one after the other, or one breaks. -/
structure Course (σ ε υ : Type) where
  Sound : σ → Prop
  Passes : σ → List υ → σ → Prop
  Breaks : σ → υ → ε → σ → Prop
  refl : ∀ {s}, Sound s → Passes s [] s
  trans : ∀ {s t u xs ys}, Passes s xs t → Passes t ys u → Passes s (xs ++ ys) u
  sound : ∀ {s t xs}, Passes s xs t → Sound t

/-- The units that a step may be made of if it has this result. -/
abbrev Plan (υ α : Type) := α → List υ → Prop

namespace Plan
variable {υ α β : Type}

/-- Nothing is done for this result. -/
def none (a : α) : Plan υ α := fun result units => result = a ∧ units = []

/-- These units are passed, and the result is not looked at. -/
def only (units : List υ) : Plan υ α := fun _ found => found = units

/-- First one plan, then another that may depend on its result. -/
def andThen (first : Plan υ α) (next : α → Plan υ β) : Plan υ β := fun b units =>
  ∃ a early late, first a early ∧ next a b late ∧ units = early ++ late

end Plan

namespace Course
variable {σ ε υ α β : Type} {course : Course σ ε υ}

/-- A step keeps to a plan, however it ends. -/
structure Follows (course : Course σ ε υ) (step : EStateM ε σ α) (plan : Plan υ α) : Prop where
  possible : ∃ a units, plan a units
  ok : ∀ {s a t}, course.Sound s → step s = .ok a t → ∃ units, plan a units ∧ course.Passes s units t
  error : ∀ {s fault t}, course.Sound s → step s = .error fault t →
    ∃ a done unit rest between, plan a (done ++ unit :: rest) ∧ course.Passes s done between ∧
      course.Breaks between unit fault t

namespace Follows

theorem pure (a : α) : course.Follows (Pure.pure a : EStateM ε σ α) (.none a) where
  possible := ⟨a, [], rfl, rfl⟩
  ok sound h := by
    cases h
    exact ⟨[], ⟨rfl, rfl⟩, course.refl sound⟩
  error _ h := by cases h

theorem mono {step : EStateM ε σ α} {plan other : Plan υ α} (follows : course.Follows step plan)
    (weaker : ∀ {a units}, plan a units → other a units) : course.Follows step other where
  possible := by
    obtain ⟨a, units, planned⟩ := follows.possible
    exact ⟨a, units, weaker planned⟩
  ok sound h := by
    obtain ⟨units, planned, passes⟩ := follows.ok sound h
    exact ⟨units, weaker planned, passes⟩
  error sound h := by
    obtain ⟨a, done, unit, rest, between, planned, passes, breaks⟩ := follows.error sound h
    exact ⟨a, done, unit, rest, between, weaker planned, passes, breaks⟩

theorem bind {first : EStateM ε σ α} {next : α → EStateM ε σ β} {plan : Plan υ α}
    {later : α → Plan υ β} (follows : course.Follows first plan)
    (onward : ∀ a, course.Follows (next a) (later a)) :
    course.Follows (first >>= next) (plan.andThen later) where
  possible := by
    obtain ⟨a, early, planned⟩ := follows.possible
    obtain ⟨b, late, plannedLate⟩ := (onward a).possible
    exact ⟨b, _, a, early, late, planned, plannedLate, rfl⟩
  ok {s _ _} sound h := by
    simp only [Bind.bind, EStateM.bind] at h
    cases ran : first s with
    | ok a between =>
      rw [ran] at h
      obtain ⟨early, planned, passes⟩ := follows.ok sound ran
      obtain ⟨late, plannedLate, passesLate⟩ := (onward a).ok (course.sound passes) h
      exact ⟨_, ⟨a, early, late, planned, plannedLate, rfl⟩, course.trans passes passesLate⟩
    | error fault between =>
      rw [ran] at h
      cases h
  error {s _ _} sound h := by
    simp only [Bind.bind, EStateM.bind] at h
    cases ran : first s with
    | ok a between =>
      -- what was planned for the first step is done, and some of the second plan
      rw [ran] at h
      obtain ⟨early, planned, passes⟩ := follows.ok sound ran
      obtain ⟨b, done, unit, rest, here, plannedLate, passesLate, breaks⟩ :=
        (onward a).error (course.sound passes) h
      refine ⟨b, early ++ done, unit, rest, here, ⟨a, early, _, planned, plannedLate, ?_⟩,
        course.trans passes passesLate, breaks⟩
      rw [List.append_assoc]
    | error fault between =>
      -- the second plan is not begun, but there is one
      rw [ran] at h
      cases h
      obtain ⟨a, done, unit, rest, here, planned, passes, breaks⟩ := follows.error sound ran
      obtain ⟨b, late, plannedLate⟩ := (onward a).possible
      refine ⟨b, done, unit, rest ++ late, here, ⟨a, _, late, planned, plannedLate, ?_⟩, passes,
        breaks⟩
      rw [List.append_assoc, List.cons_append]

end Follows

end Course

end TableExport
