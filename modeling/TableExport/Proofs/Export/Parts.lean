import TableExport.Export.Run
import TableExport.Proofs.Export.Effects
import TableExport.Proofs.Target.Artifacts

/-!
# Parts of a run

A run goes in parts: a question that stands alone, or an artifact with all that is asked
while it is written. The sink of an artifact is opened, gets its items and is completed. A
part that breaks stops in one of these steps. Each step of a run is shown to follow its plan
of parts, whatever the storage answers and whatever becomes of the sinks.
-/
namespace TableExport

inductive Part
  | asking (exchange : Exchange)
  | storing (name : String) (contentType : ContentType) (items : List Item)

/-- The world when writing ends early: a crash leaves everything as it is, and after any other
failure the sink is given up. -/
def Output.leave (o : Output) : Fault ExportError → World
  | .crash => o.world
  | .raised _ => { o.world with files := o.sink.release o.world.files }

namespace Part

def exchanges : Part → List Exchange
  | .asking exchange => [exchange]
  | .storing _ _ items => Item.exchanges items

def artifacts : Part → List Artifact
  | .asking _ => []
  | .storing name contentType items => [⟨name, contentType, Item.body items⟩]

/-- A question was answered and nothing stored, or an artifact was opened, written and
completed. -/
inductive Passes (storage : Storage) (outlet : Outlet) : Part → World → World → Prop
  | asking {a b : World} {exchange : Exchange} (talks : Talks storage a [exchange] b)
    (keeps : Keeps a b) : Passes storage outlet (.asking exchange) a b
  | storing {a opened c b : World} {name : String} {contentType : ContentType}
    {items : List Item} {sink sink' : Sink}
    (opening : outlet.openSink name contentType a = .ok sink opened)
    (effect : Effect storage ⟨[], sink, opened⟩ (Item.body items) (Item.exchanges items)
      ⟨[], sink', c⟩)
    (committing : outlet.commit sink' c = .ok () b) :
    Passes storage outlet (.storing name contentType items) a b

/-- A question was not answered, or an artifact was given up at some step. -/
inductive Breaks (storage : Storage) (outlet : Outlet) :
    Part → World → Fault ExportError → World → Prop
  | unanswered {a b : World} {exchange : Exchange} {fault : Fault ExportError}
    (failed : Unanswered storage a exchange.call fault b) (keeps : Keeps a b) :
    Breaks storage outlet (.asking exchange) a fault b
  | unopened {a b : World} {name : String} {contentType : ContentType} {items : List Item}
    {fault : Fault ExportError}
    (opening : outlet.openSink name contentType a = .error fault b) :
    Breaks storage outlet (.storing name contentType items) a fault b
  | unwritten {a opened : World} {name : String} {contentType : ContentType}
    {done rest : List Item} {item : Item} {fault : Fault ExportError} {sink : Sink}
    {between left : Output}
    (opening : outlet.openSink name contentType a = .ok sink opened)
    (effect : Effect storage ⟨[], sink, opened⟩ (Item.body done) (Item.exchanges done) between)
    (breaks : Item.Breaks storage between item fault left)
    (held : fault ≠ .crash → left.held = []) :
    Breaks storage outlet (.storing name contentType (done ++ item :: rest)) a fault
      (left.leave fault)
  | uncommitted {a opened c b : World} {name : String} {contentType : ContentType}
    {items : List Item} {fault : Fault ExportError} {sink sink' : Sink}
    (opening : outlet.openSink name contentType a = .ok sink opened)
    (effect : Effect storage ⟨[], sink, opened⟩ (Item.body items) (Item.exchanges items)
      ⟨[], sink', c⟩)
    (committing : outlet.commit sink' c = .error fault b) :
    Breaks storage outlet (.storing name contentType items) a fault b

/-- The parts were passed in this order. Events may have been added in between. -/
inductive Passed (storage : Storage) (outlet : Outlet) : World → List Part → World → Prop
  | idle {a b : World} (talks : Talks storage a [] b) (keeps : Keeps a b) :
    Passed storage outlet a [] b
  | one {a b : World} {part : Part} (passes : Passes storage outlet part a b) :
    Passed storage outlet a [part] b
  | trans {a b c : World} {xs ys : List Part} (first : Passed storage outlet a xs b)
    (second : Passed storage outlet b ys c) : Passed storage outlet a (xs ++ ys) c

/-- How far a run came through its parts: all were passed, or one of them broke. -/
inductive Reached {α : Type} (storage : Storage) (outlet : Outlet) (before : World)
    (parts : List Part) : EStateM.Result (Fault ExportError) World α → Prop
  | all {result : α} {after : World} (passed : Passed storage outlet before parts after) :
    Reached storage outlet before parts (.ok result after)
  | broken {done later : List Part} {part : Part} {between after : World}
    {fault : Fault ExportError} (split : parts = done ++ part :: later)
    (passed : Passed storage outlet before done between)
    (breaks : Breaks storage outlet part between fault after) :
    Reached storage outlet before parts (.error fault after)

/-- The course of a run. -/
def course (storage : Storage) (outlet : Outlet) : Course World (Fault ExportError) Part where
  Sound _ := True
  Passes := Passed storage outlet
  Breaks a part := Breaks storage outlet part a
  refl _ := .idle (.silent storage rfl (List.prefix_refl _)) ⟨rfl, rfl, rfl⟩
  trans := .trans
  sound _ := trivial

end Part

/-! ## Outlets -/

/-- A step that asks the storage nothing and takes no event back. -/
structure Run.Silent {α : Type} (step : Run α) : Prop where
  ok : ∀ {world a world'}, step world = .ok a world' →
    world'.calls = world.calls ∧ world.log <+: world'.log
  error : ∀ {world fault world'}, step world = .error fault world' →
    world'.calls = world.calls ∧ world.log <+: world'.log

/-- An outlet that has nothing to do with the storage, and opens sinks that can be written. -/
structure Outlet.Proper (outlet : Outlet) : Prop where
  openSink : ∀ name contentType, (outlet.openSink name contentType).Silent
  commit : ∀ sink, (outlet.commit sink).Silent
  ready : ∀ {name contentType world sink opened},
    outlet.openSink name contentType world = .ok sink opened → sink.Ready opened.files

/-! ## Conversations -/

/-- What is left of a broken item does not tell how far the conversation came. -/
theorem Item.Breaks.halted {storage : Storage} {between left : Output} {item : Item}
    {fault : Fault ExportError} (breaks : Item.Breaks storage between item fault left) :
    Halted storage between.world item.exchange?.toList fault left.world := by
  cases breaks with
  | unanswered within failed kept =>
    exact .atOnce failed
  | refused silent refused =>
    refine .silent ?_ ?_
    · rw [refused.world]
    · exact refused.world ▸ List.prefix_refl _

theorem Output.leave_calls (left : Output) (fault : Fault ExportError) :
    (left.leave fault).calls = left.world.calls ∧ (left.leave fault).log = left.world.log := by
  cases fault <;> exact ⟨rfl, rfl⟩

namespace Part
variable {storage : Storage} {outlet : Outlet} {a b : World}

private theorem opening_talks (storage : Storage) (proper : outlet.Proper) {name : String}
    {contentType : ContentType} {sink : Sink}
    (opening : outlet.openSink name contentType a = .ok sink b) : Talks storage a [] b :=
  .silent storage ((proper.openSink name contentType).ok opening).1
    ((proper.openSink name contentType).ok opening).2

theorem Passes.talks {part : Part} (passes : Passes storage outlet part a b)
    (proper : outlet.Proper) : Talks storage a part.exchanges b := by
  cases passes with
  | asking talks keeps => exact talks
  | @storing _ opened c _ name contentType items sink sink' opening effect committing =>
    obtain ⟨calls, log⟩ := (proper.commit sink').ok committing
    exact ((opening_talks storage proper opening).trans effect.talks).later calls log

theorem Passed.talks {parts : List Part} (passed : Passed storage outlet a parts b)
    (proper : outlet.Proper) : Talks storage a (parts.flatMap exchanges) b := by
  induction passed with
  | idle talks keeps => exact talks
  | one passes => simpa using passes.talks proper
  | trans first second ihFirst ihSecond =>
    rw [List.flatMap_append]
    exact ihFirst.trans ihSecond

theorem Passed.refl (storage : Storage) (outlet : Outlet) (a : World) :
    Passed storage outlet a [] a := (course storage outlet).refl trivial

/-- There is a moment between two parts that follow each other. -/
theorem Passed.split {zs : List Part} (passed : Passed storage outlet a zs b) :
    ∀ {xs ys}, zs = xs ++ ys → ∃ c, Passed storage outlet a xs c ∧ Passed storage outlet c ys b := by
  induction passed with
  | idle talks keeps =>
    intro xs ys same
    obtain ⟨rfl, rfl⟩ := List.append_eq_nil_iff.mp same.symm
    exact ⟨_, .refl storage outlet _, .idle talks keeps⟩
  | one passes =>
    intro xs ys same
    rcases List.append_eq_singleton_iff.mp same.symm with ⟨rfl, rfl⟩ | ⟨rfl, rfl⟩
    · exact ⟨_, .refl storage outlet _, .one passes⟩
    · exact ⟨_, .one passes, .refl storage outlet _⟩
  | trans first second ihFirst ihSecond =>
    intro xs ys same
    rcases List.append_eq_append_iff.mp same with ⟨more, rfl, rfl⟩ | ⟨more, rfl, rfl⟩
    · obtain ⟨c, early, late⟩ := ihSecond rfl
      exact ⟨c, .trans first early, late⟩
    · obtain ⟨c, early, late⟩ := ihFirst rfl
      exact ⟨c, early, .trans late second⟩

/-- Each part has its moment. -/
theorem Passed.passes {part : Part} {zs : List Part} (passed : Passed storage outlet a zs b) :
    ∀ {xs ys}, zs = xs ++ part :: ys → ∃ c d, Passed storage outlet a xs c ∧
      Passes storage outlet part c d ∧ Passed storage outlet d ys b := by
  induction passed with
  | idle talks keeps =>
    intro xs ys same
    simp at same
  | one passes =>
    intro xs ys same
    obtain ⟨rfl, rest⟩ | ⟨-, none⟩ := List.append_eq_singleton_iff.mp same.symm
    · obtain ⟨rfl, rfl⟩ := List.cons.inj rest
      exact ⟨_, _, .refl storage outlet _, passes, .refl storage outlet _⟩
    · cases none
  | trans first second ihFirst ihSecond =>
    intro xs ys same
    rcases List.append_eq_append_iff.mp same with ⟨more, rfl, rfl⟩ | ⟨more, rfl, rest⟩
    · obtain ⟨c, d, early, passes, late⟩ := ihSecond rfl
      exact ⟨c, d, .trans first early, passes, late⟩
    · cases more with
      | nil =>
        obtain ⟨c, d, early, passes, late⟩ := @ihSecond [] ys rest.symm
        refine ⟨c, d, ?_, passes, late⟩
        rw [← List.append_nil xs]
        exact .trans (by simpa using first) early
      | cons part more =>
        cases rest
        obtain ⟨c, d, early, passes, late⟩ := ihFirst rfl
        exact ⟨c, d, early, passes, .trans late second⟩

/-- A part that breaks has asked its questions up to some point. -/
theorem Breaks.halted {part : Part} {fault : Fault ExportError}
    (breaks : Breaks storage outlet part a fault b) (proper : outlet.Proper) :
    Halted storage a part.exchanges fault b := by
  cases breaks with
  | unanswered failed keeps =>
    exact .atOnce failed
  | unopened opening =>
    obtain ⟨calls, log⟩ := (proper.openSink ..).error opening
    exact .silent calls log
  | @unwritten _ opened name contentType done rest item _ sink between left opening effect breaks held =>
    have talks := (opening_talks storage proper opening).trans effect.talks
    have halted := (breaks.halted.after talks).append (Item.exchanges rest)
    obtain ⟨calls, log⟩ := left.leave_calls fault
    have split : exchanges (.storing name contentType (done ++ item :: rest)) =
        [] ++ Item.exchanges done ++ item.exchange?.toList ++ Item.exchanges rest := by
      simp [exchanges]
    rw [split]
    exact halted.later calls (log ▸ List.prefix_refl _)
  | @uncommitted _ opened c _ name contentType items _ sink sink' opening effect committing =>
    obtain ⟨calls, log⟩ := (proper.commit sink').error committing
    have talks := ((opening_talks storage proper opening).trans effect.talks).later calls log
    have all : exchanges (.storing name contentType items) =
        ([] ++ Item.exchanges items) ++ [] := by simp [exchanges]
    rw [all]
    exact .between talks

end Part

/-! ## Steps of a run -/

namespace Run
variable {storage : Storage} {outlet : Outlet}

theorem ask_follows (storage : Storage) (outlet : Outlet) (call : Call) :
    (Part.course storage outlet).Follows (ask storage call)
      fun answer parts => parts = [.asking ⟨call, answer⟩] where
  possible := ⟨default, _, rfl⟩
  ok _ h := by
    obtain ⟨talks, keeps⟩ := ask_ok h
    exact ⟨_, rfl, .one (.asking talks keeps)⟩
  error {s _ _} _ h := by
    obtain ⟨failed, keeps⟩ := ask_error h
    exact ⟨default, [], _, [], s, rfl, (Part.course storage outlet).refl trivial,
      .unanswered failed keeps⟩

theorem report_follows (storage : Storage) (outlet : Outlet) (event : Log.Event) :
    (Part.course storage outlet).Follows (report event) (.only []) where
  possible := ⟨(), _, rfl⟩
  ok _ h := by
    obtain ⟨talks, keeps⟩ := report_talks storage h
    exact ⟨_, rfl, .idle talks keeps⟩
  error _ h := by cases h

theorem writing_error {α : Type} {sink : Sink} {steps : Writing α} {fault : Fault ExportError}
    {world world' : World} (h : writing sink steps world = .error fault world') :
    ∃ left, steps ⟨[], sink, world⟩ = .error fault left ∧ world' = left.leave fault := by
  unfold writing at h
  split at h
  next => cases h
  next left ran =>
    cases h
    exact ⟨left, ran, rfl⟩
  next error left ran =>
    cases h
    exact ⟨left, ran, rfl⟩

/-- An artifact is one part, made of the items of its writing steps. -/
theorem artifact_follows {α : Type} {steps : Writing α} {plan : Plan Item α} (proper : outlet.Proper)
    (name : String) (follows : (Item.course storage).Follows steps plan)
    (flushed : ∀ {a items}, plan a items → items.getLast? = some .flushed)
    (tidy : Writing.Tidy steps) :
    (Part.course storage outlet).Follows (artifact outlet name steps) fun a parts =>
      ∃ items, plan a items ∧ parts = [.storing name .csv items] where
  possible := by
    obtain ⟨a, items, planned⟩ := follows.possible
    exact ⟨a, _, items, planned, rfl⟩
  ok _ h := by
    obtain ⟨sink, opened, opening, rest⟩ := bind_ok h
    obtain ⟨⟨result, sink'⟩, c, written, last⟩ := bind_ok rest
    obtain ⟨held, ran⟩ := writing_ok written
    obtain ⟨_, b, committing, given⟩ := bind_ok last
    cases given
    obtain ⟨items, planned, effect, empty⟩ :=
      Writing.follows_ok follows flushed (proper.ready opening) ran
    obtain rfl : held = [] := empty
    exact ⟨_, ⟨items, planned, rfl⟩, .one (.storing opening effect committing)⟩
  error {s _ _} _ h := by
    -- opening, writing and completing fail each in its own way
    have idle := (Part.course storage outlet).refl (s := s) trivial
    obtain opening | ⟨sink, opened, opening, rest⟩ := bind_error h
    · obtain ⟨a, items, planned⟩ := follows.possible
      exact ⟨a, [], _, [], s, ⟨items, planned, rfl⟩, idle, .unopened opening⟩
    obtain writing | ⟨⟨result, sink'⟩, c, written, last⟩ := bind_error rest
    · obtain ⟨left, ran, rfl⟩ := writing_error writing
      obtain ⟨a, done, item, rest, between, planned, passes, breaks⟩ :=
        follows.error (proper.ready opening) ran
      refine ⟨a, [], _, [], s, ⟨_, planned, rfl⟩, idle, .unwritten opening passes.1 breaks ?_⟩
      intro reported
      cases fault : ‹Fault ExportError› with
      | crash => exact absurd fault reported
      | raised error => exact tidy rfl (fault ▸ ran)
    · obtain ⟨held, ran⟩ := writing_ok written
      obtain ⟨items, planned, effect, empty⟩ :=
        Writing.follows_ok follows flushed (proper.ready opening) ran
      obtain rfl : held = [] := empty
      obtain committing | ⟨_, _, -, given⟩ := bind_error last
      · exact ⟨result, [], _, [], s, ⟨items, planned, rfl⟩, idle,
          .uncommitted opening effect committing⟩
      · cases given

end Run

/-- An artifact that is stored in one step is one part, with one item. -/
theorem Outlet.store_follows (storage : Storage) {outlet : Outlet} (proper : outlet.Proper)
    (name : String) (contentType : ContentType) (bytes : Bytes) :
    (Part.course storage outlet).Follows (outlet.store name contentType bytes)
      (.only [.storing name contentType [.wrote bytes]]) where
  possible := ⟨(), _, rfl⟩
  ok _ h := by
    obtain ⟨sink, opened, opening, rest⟩ := bind_ok h
    obtain ⟨sink', c, filling, committing⟩ := bind_ok rest
    obtain ⟨effect, -⟩ := Run.fill_ok storage (proper.ready opening) filling
    exact ⟨_, rfl, .one (.storing opening (by simpa using effect) committing)⟩
  error {s _ _} _ h := by
    have idle := (Part.course storage outlet).refl (s := s) trivial
    obtain opening | ⟨sink, opened, opening, rest⟩ := bind_error h
    · exact ⟨(), [], _, [], s, rfl, idle, .unopened opening⟩
    have ready := proper.ready opening
    obtain filling | ⟨sink', c, filling, committing⟩ := bind_error rest
    · obtain ⟨left, refused, held, reported, rfl⟩ := Run.fill_error ready filling
      cases fault : ‹Fault ExportError› with
      | crash => exact absurd fault reported
      | raised error =>
        have breaks : Item.Breaks storage ⟨[], sink, opened⟩ (.wrote bytes) (.raised error) left :=
          .refused rfl (fault ▸ refused)
        exact ⟨(), [], _, [], s, rfl, idle, @Part.Breaks.unwritten storage outlet _ _ _ _ [] [] _ _
          _ _ _ opening (.refl storage ready) breaks fun _ => held⟩
    · obtain ⟨effect, -⟩ := Run.fill_ok storage ready filling
      exact ⟨(), [], _, [], s, rfl, idle, .uncommitted opening (by simpa using effect) committing⟩

/-! ## Targets -/

namespace Target

theorem outlet_proper (target : Target) : target.outlet.Proper where
  openSink name contentType := by
    refine ⟨fun h => ?_, fun h => ?_⟩
    · obtain ⟨talks, log⟩ := (openSink_ok h).silent
      exact ⟨talks, log ▸ List.prefix_refl _⟩
    · obtain ⟨_, -, rfl, -⟩ := openSink_error h
      exact ⟨rfl, List.prefix_refl _⟩
  commit sink := by
    refine ⟨commit_ok, fun h => ?_⟩
    rw [(commit_error h).2]
    exact ⟨rfl, List.prefix_refl _⟩
  ready opening := (openSink_ok opening).ready.1

end Target

/-- The artifacts of parts that are passed are stored in their order. -/
theorem Part.Passed.writes {storage : Storage} {target : Target} {a b : World} {parts : List Part}
    (passed : Passed storage target.outlet a parts b) :
    target.Writes a (parts.flatMap artifacts) b := by
  induction passed with
  | idle talks keeps => exact .idle keeps.files keeps.objects
  | one passes =>
    cases passes with
    | asking talks keeps => exact .idle keeps.files keeps.objects
    | storing opening effect committing =>
      exact .store ((Target.openSink_ok opening).completed effect committing).1
  | trans first second ihFirst ihSecond =>
    rw [List.flatMap_append]
    exact ihFirst.trans ihSecond

end TableExport
