import TableExport.Export.Projection
import TableExport.Proofs.Csv.Reading
import TableExport.Proofs.Export.Courses
import TableExport.Proofs.Export.Steps
import TableExport.Proofs.Target.Sinks

/-!
# What writing steps do

The bytes of an output are those its sink has taken and those its buffer still holds.
Writing goes in items: questions, pieces of data, and pushing everything out at the end. An
item that is passed adds its data at the end; one that breaks leaves all bytes as they are,
if the sink itself does not fail. No file but that of the sink is touched.
-/
namespace TableExport

/-- All bytes so far: those that the sink has taken, then those in the buffer. -/
def Output.bytes (o : Output) : Bytes := o.sink.taken o.world.files ++ o.held

/-- Of all that is stored, only what belongs to the sink may have changed. -/
structure Within (before after : Output) : Prop where
  origin : after.sink.origin = before.sink.origin
  ready : after.sink.Ready after.world.files
  files : FileSystem.SameBut before.sink.place? before.world.files after.world.files
  objects : after.world.objects = before.world.objects
  attempts : after.world.attempts = before.world.attempts

namespace Within
variable {a b c : Output}

theorem place? (within : Within a b) : b.sink.place? = a.sink.place? := by
  rw [← Sink.place?_origin, within.origin, Sink.place?_origin]

theorem refl (ready : a.sink.Ready a.world.files) : Within a a := ⟨rfl, ready, .refl .., rfl, rfl⟩

theorem trans (first : Within a b) (second : Within b c) : Within a c where
  origin := second.origin.trans first.origin
  ready := second.ready
  files := first.files.trans (first.place? ▸ second.files)
  objects := second.objects.trans first.objects
  attempts := second.attempts.trans first.attempts

theorem willing (within : Within a b) (willing : a.sink.Willing) : b.sink.Willing :=
  Sink.willing_of_origin within.origin willing

theorem ofAdvance {sink : Sink} {files : FileSystem} {passed : Bytes} (held : Bytes)
    (advance : Sink.Advance a.sink a.world.files passed sink files) :
    Within a ⟨held, sink, { a.world with files := files }⟩ :=
  ⟨advance.origin, advance.ready, advance.files, rfl, rfl⟩

/-- A step that stores nothing. -/
theorem ofKeeps {world : World} (ready : a.sink.Ready a.world.files) (keeps : Keeps a.world world) :
    Within a { a with world := world } :=
  ⟨rfl, by simpa [keeps.files] using ready, by simpa [keeps.files] using FileSystem.SameBut.refl ..,
    keeps.objects, keeps.attempts⟩

end Within

/-- Data was added to the output, and these calls to those made before. -/
structure Effect (storage : Storage) (before : Output) (data : Bytes) (exchanges : List Exchange)
    (after : Output) : Prop extends Within before after where
  bytes : after.bytes = before.bytes ++ data
  talks : Talks storage before.world exchanges after.world

namespace Effect
variable {storage : Storage} {a b c : Output} {data more : Bytes} {xs ys : List Exchange}

theorem trans (first : Effect storage a data xs b) (second : Effect storage b more ys c) :
    Effect storage a (data ++ more) (xs ++ ys) c where
  toWithin := first.toWithin.trans second.toWithin
  bytes := by rw [second.bytes, first.bytes, List.append_assoc]
  talks := first.talks.trans second.talks

theorem refl (storage : Storage) (ready : a.sink.Ready a.world.files) : Effect storage a [] [] a :=
  ⟨.refl ready, by simp, .silent storage rfl (List.prefix_refl _)⟩

/-- A step that stores nothing. -/
theorem ofKeeps {world : World} (ready : a.sink.Ready a.world.files)
    (talks : Talks storage a.world xs world) (keeps : Keeps a.world world) :
    Effect storage a [] xs { a with world := world } :=
  ⟨.ofKeeps ready keeps, by simp [Output.bytes, keeps.files], talks⟩

/-- The sink has taken data that is in the buffer no more. -/
theorem ofAdvance (storage : Storage) {sink : Sink} {files : FileSystem} {passed held : Bytes}
    (advance : Sink.Advance a.sink a.world.files passed sink files)
    (kept : passed ++ held = a.held ++ data) :
    Effect storage a data [] ⟨held, sink, { a.world with files := files }⟩ where
  toWithin := .ofAdvance held advance
  bytes := by simp [Output.bytes, advance.taken, kept]
  talks := .silent storage rfl (List.prefix_refl _)

end Effect

/-- The sink failed to take what it was given. -/
structure Refused (before : Output) (fault : Fault ExportError) (after : Output) : Prop
    extends Within before after where
  world : after.world = { before.world with files := after.world.files }
  unwilling : ¬before.sink.Willing
  reported : ∃ context, fault = .raised (.write context .refused)

theorem Refused.after {a b c : Output} {fault : Fault ExportError} (within : Within a b)
    (world : b.world = { a.world with files := b.world.files }) (refused : Refused b fault c) :
    Refused a fault c where
  toWithin := within.trans refused.toWithin
  world := by rw [refused.world, world]
  unwilling willing := refused.unwilling (within.willing willing)
  reported := refused.reported

/-! ## Items -/

inductive Item
  -- A question that is answered.
  | asked (exchange : Exchange)
  | wrote (data : Bytes)
  -- Everything is pushed out of the buffer.
  | flushed

namespace Item

def record (fields : List String) : Item := .wrote (Csv.encodeRecord (fields.map Bytes.ofText))

def exchange? : Item → Option Exchange
  | .asked exchange => some exchange
  | .wrote _ => none
  | .flushed => none

def data : Item → Bytes
  | .asked _ => []
  | .wrote data => data
  | .flushed => []

/-- The questions among items. -/
def exchanges (items : List Item) : List Exchange := items.filterMap exchange?

/-- What items write. -/
def body (items : List Item) : Bytes := items.flatMap data

@[simp] theorem exchange?_asked (exchange : Exchange) :
    (asked exchange).exchange? = some exchange := rfl

@[simp] theorem exchange?_wrote (bytes : Bytes) : (wrote bytes).exchange? = none := rfl

@[simp] theorem exchange?_flushed : flushed.exchange? = none := rfl

@[simp] theorem data_asked (exchange : Exchange) : (asked exchange).data = [] := rfl

@[simp] theorem data_wrote (bytes : Bytes) : (wrote bytes).data = bytes := rfl

@[simp] theorem data_flushed : flushed.data = [] := rfl

@[simp] theorem exchange?_record (fields : List String) : (record fields).exchange? = none := rfl

@[simp] theorem data_record (fields : List String) :
    (record fields).data = Csv.encodeRecord (fields.map Bytes.ofText) := rfl

@[simp] theorem exchanges_nil : exchanges [] = [] := rfl

@[simp] theorem exchanges_cons (item : Item) (items : List Item) :
    exchanges (item :: items) = item.exchange?.toList ++ exchanges items := by
  cases item <;> rfl

@[simp] theorem exchanges_append (xs ys : List Item) :
    exchanges (xs ++ ys) = exchanges xs ++ exchanges ys := List.filterMap_append

@[simp] theorem exchanges_records (rows : List (List String)) : exchanges (rows.map record) = [] := by
  induction rows with
  | nil => rfl
  | cons fields rest ih => exact ih

@[simp] theorem body_nil : body [] = [] := rfl

@[simp] theorem body_cons (item : Item) (items : List Item) :
    body (item :: items) = item.data ++ body items := rfl

@[simp] theorem body_append (xs ys : List Item) : body (xs ++ ys) = body xs ++ body ys :=
  List.flatMap_append

@[simp] theorem body_records (rows : List (List String)) :
    body (rows.map record) = Csv.document rows := by
  induction rows with
  | nil => rfl
  | cons fields rest ih =>
    rw [Csv.document_cons, ← ih]
    rfl

/-- What the buffer holds after items: what it held before if there are none, and nothing if
they end with pushing everything out. -/
structure Holds (items : List Item) (before after : Output) : Prop where
  idle : items = [] → after.held = before.held
  flushed : items.getLast? = some .flushed → after.held = []

theorem Holds.trans {a b c : Output} {xs ys : List Item} (first : Holds xs a b)
    (second : Holds ys b c) : Holds (xs ++ ys) a c where
  idle none := by
    obtain ⟨rfl, rfl⟩ := List.append_eq_nil_iff.mp none
    rw [second.idle rfl, first.idle rfl]
  flushed last := by
    rcases List.eq_nil_or_concat ys with rfl | ⟨front, item, rfl⟩
    · rw [second.idle rfl]
      exact first.flushed (by simpa using last)
    · exact second.flushed (by simpa using last)

/-- An item is not passed: the storage fails to answer, or the sink to take. -/
inductive Breaks (storage : Storage) : Output → Item → Fault ExportError → Output → Prop
  | unanswered {before after : Output} {exchange : Exchange} {fault : Fault ExportError}
    (within : Within before after)
    (failed : Unanswered storage before.world exchange.call fault after.world)
    (kept : before.sink.Willing → after.bytes = before.bytes) :
    Breaks storage before (.asked exchange) fault after
  | refused {before after : Output} {item : Item} {fault : Fault ExportError}
    (silent : item.exchange? = none) (refused : Refused before fault after) :
    Breaks storage before item fault after

theorem Breaks.within {storage : Storage} {a b : Output} {item : Item} {fault : Fault ExportError}
    (breaks : Breaks storage a item fault b) : Within a b := by
  cases breaks with
  | unanswered within failed kept => exact within
  | refused silent refused => exact refused.toWithin

/-- All that was written is still there, unless the sink has failed. -/
theorem Breaks.kept {storage : Storage} {a b : Output} {item : Item} {fault : Fault ExportError}
    (breaks : Breaks storage a item fault b) (willing : a.sink.Willing) : b.bytes = a.bytes := by
  cases breaks with
  | unanswered within failed kept => exact kept willing
  | refused silent refused => exact absurd willing refused.unwilling

/-- A sink that never fails leaves only questions to break. -/
theorem Breaks.asked {storage : Storage} {a b : Output} {item : Item} {fault : Fault ExportError}
    (breaks : Breaks storage a item fault b) (willing : a.sink.Willing) :
    ∃ exchange, item = .asked exchange ∧ Unanswered storage a.world exchange.call fault b.world := by
  cases breaks with
  | unanswered within failed kept => exact ⟨_, rfl, failed⟩
  | refused silent refused => exact absurd willing refused.unwilling

/-- What happens to the sink afterwards does not change why the item broke. -/
theorem Breaks.andThen {storage : Storage} {a b c : Output} {item : Item}
    {fault : Fault ExportError} (breaks : Breaks storage a item fault b) (within : Within b c)
    (world : c.world = { b.world with files := c.world.files })
    (kept : b.sink.Willing → c.bytes = b.bytes) : Breaks storage a item fault c := by
  cases breaks with
  | unanswered before failed keptBefore =>
    refine .unanswered (before.trans within) ⟨failed.failed, ?_, ?_⟩ fun willing => ?_
    · rw [world]
      exact failed.calls
    · rw [world]
      exact failed.log
    · rw [kept (before.willing willing), keptBefore willing]
  | refused silent refused =>
    refine .refused silent ⟨refused.toWithin.trans within, ?_, refused.unwilling, refused.reported⟩
    rw [world, refused.world]

/-- The course of writing steps. -/
def course (storage : Storage) : Course Output (Fault ExportError) Item where
  Sound o := o.sink.Ready o.world.files
  Passes before items after :=
    Effect storage before (body items) (exchanges items) after ∧ Holds items before after
  Breaks := Breaks storage
  refl ready := ⟨.refl storage ready, fun _ => rfl, nofun⟩
  trans := by
    rintro s t u xs ys ⟨first, held⟩ ⟨second, heldThen⟩
    rw [body_append, exchanges_append]
    exact ⟨first.trans second, held.trans heldThen⟩
  sound passes := passes.1.ready

end Item

/-! ## Writing steps -/

namespace Writing
variable {storage : Storage} {o o' : Output} {artifact : String} {done : Unit}

theorem hold_eq (bytes : Bytes) (o : Output) :
    hold bytes o = .ok () { o with held := bytes } := rfl

theorem hold_ok {bytes : Bytes} (h : hold bytes o = .ok done o') :
    o' = { o with held := bytes } := by
  cases h
  rfl

theorem ask_follows (storage : Storage) (call : Call) :
    (Item.course storage).Follows (run (Run.ask storage call))
      fun answer items => items = [.asked ⟨call, answer⟩] where
  possible := ⟨default, _, rfl⟩
  ok {o _ _} ready h := by
    unfold run at h
    split at h
    next answer world asked =>
      cases h
      obtain ⟨talks, keeps⟩ := Run.ask_ok asked
      exact ⟨_, rfl, .ofKeeps ready talks keeps, nofun, nofun⟩
    next => cases h
  error {o _ _} ready h := by
    unfold run at h
    split at h
    next => cases h
    next fault world asked =>
      cases h
      obtain ⟨failed, keeps⟩ := Run.ask_error asked
      refine ⟨default, [], _, [], o, rfl, (Item.course storage).refl ready, ?_⟩
      exact .unanswered (.ofKeeps ready keeps) failed fun _ => by simp [Output.bytes, keeps.files]

theorem report_follows (storage : Storage) (event : Log.Event) :
    (Item.course storage).Follows (run (Run.report event)) (.only []) where
  possible := ⟨(), _, rfl⟩
  ok {o _ _} ready h := by
    cases h
    obtain ⟨talks, keeps⟩ := @Run.report_talks storage event o.world _ _ rfl
    exact ⟨_, rfl, .ofKeeps ready talks keeps, fun _ => rfl, nofun⟩
  error _ h := by cases h

/-- All that the buffer held is taken, or the sink has failed. -/
theorem push_ok {taken : Bool} (ready : o.sink.Ready o.world.files) (h : push o = .ok taken o') :
    taken = true ∧ Sink.Advance o.sink o.world.files o.held o'.sink o'.world.files ∧
        o' = ⟨[], o'.sink, { o.world with files := o'.world.files }⟩ ∨
      taken = false ∧ Within o o' ∧ o'.world = { o.world with files := o'.world.files } ∧
        ¬o.sink.Willing := by
  simp only [push] at h
  cases pushed : o.sink.writeAll o.world.files o.held with
  | mk whole left =>
    obtain ⟨sink, files⟩ := left
    rw [pushed] at h
    cases h
    cases whole with
    | true => exact .inl ⟨rfl, Sink.writeAll_taken ready pushed, rfl⟩
    | false =>
      obtain ⟨n, advance, -⟩ := Sink.writeAll_advance ready pushed
      refine .inr ⟨rfl, .ofAdvance _ advance, rfl, fun willing => ?_⟩
      exact absurd (Sink.writeAll_willing willing pushed) (by decide)

theorem handOver_ok (chunks : List Bytes) (ready : o.sink.Ready o.world.files)
    (h : handOver artifact chunks o = .ok done o') :
    Sink.Advance o.sink o.world.files chunks.flatten o'.sink o'.world.files ∧
      o'.world = { o.world with files := o'.world.files } := by
  -- each chunk takes the place of what the buffer held, which the chunks before it include
  induction chunks generalizing o with
  | nil =>
    cases h
    exact ⟨.refl ready, rfl⟩
  | cons chunk rest ih =>
    obtain ⟨_, between, held, next⟩ := bind_ok h
    obtain rfl := hold_ok held
    obtain ⟨taken, pushed, push, last⟩ := bind_ok next
    rcases push_ok (o := { o with held := chunk }) ready push with
      ⟨rfl, first, same⟩ | ⟨rfl, -⟩
    · obtain ⟨later, world⟩ := ih first.ready last
      rw [same] at world
      exact ⟨first.trans later, world⟩
    · cases last

theorem handOver_error {fault : Fault ExportError} (chunks : List Bytes)
    (ready : o.sink.Ready o.world.files) (h : handOver artifact chunks o = .error fault o') :
    Refused o fault o' := by
  induction chunks generalizing o with
  | nil => cases h
  | cons chunk rest ih =>
    obtain held | ⟨_, between, held, next⟩ := bind_error h
    · cases held
    obtain rfl := hold_ok held
    obtain push | ⟨taken, pushed, push, last⟩ := bind_error next
    · cases push
    rcases push_ok (o := { o with held := chunk }) ready push with
      ⟨rfl, first, same⟩ | ⟨rfl, within, world, unwilling⟩
    · have within : Within o pushed := same ▸ .ofAdvance [] first
      exact (ih first.ready last).after within (by rw [same])
    · cases last
      exact ⟨⟨within.origin, within.ready, within.files, within.objects, within.attempts⟩, world,
        unwilling, _, rfl⟩

/-- Writing a record adds its bytes, in the sink or in the buffer. -/
theorem record_follows (storage : Storage) (artifact : String) (fields : List String) :
    (Item.course storage).Follows (record artifact fields) (.only [.record fields]) where
  possible := ⟨(), _, rfl⟩
  ok {o _ _} ready h := by
    obtain ⟨_, passed, handed, held⟩ :=
      bind_ok (show (handOver artifact _ >>= fun _ => hold _) o = _ from h)
    obtain ⟨advance, world⟩ := handOver_ok _ ready handed
    refine ⟨_, rfl, ?_, nofun, nofun⟩
    rw [hold_ok held, world]
    -- the chunks and what is left are what was held and the record after it
    refine .ofAdvance storage advance ?_
    simpa [Item.body, Item.record, Item.data, Csv.encodeRecord] using Csv.flatten_fill ..
  error {o _ _} ready h := by
    obtain handed | ⟨_, _, -, held⟩ :=
      bind_error (show (handOver artifact _ >>= fun _ => hold _) o = _ from h)
    · exact ⟨(), [], _, [], o, rfl, (Item.course storage).refl ready,
        .refused rfl (handOver_error _ ready handed)⟩
    · cases held

theorem records_follows (storage : Storage) (artifact : String) (rows : List (List String)) :
    (Item.course storage).Follows (records artifact rows) (.only (rows.map Item.record)) := by
  induction rows with
  | nil => exact (Course.Follows.pure ()).mono fun planned => planned.2
  | cons fields rest ih =>
    refine ((record_follows storage artifact fields).bind fun _ => ih).mono ?_
    rintro _ _ ⟨_, _, _, rfl, rfl, rfl⟩
    rfl

theorem flushSink_ok {flushed : Bool} (storage : Storage) (ready : o.sink.Ready o.world.files)
    (h : flushSink o = .ok flushed o') :
    Effect storage o [] [] o' ∧ o'.held = o.held ∧
      o'.world = { o.world with files := o'.world.files } ∧ (flushed = false → ¬o.sink.Willing) := by
  simp only [flushSink] at h
  cases flushing : o.sink.flush o.world.files with
  | mk whole left =>
    obtain ⟨sink, files⟩ := left
    rw [flushing] at h
    cases h
    refine ⟨.ofAdvance storage (Sink.flush_advance ready flushing) (by simp), rfl, rfl, ?_⟩
    rintro rfl willing
    exact absurd (Sink.flush_willing willing flushing) (by decide)

/-- At the end everything is in the sink. -/
theorem finish_follows (storage : Storage) (artifact : String) :
    (Item.course storage).Follows (finish artifact) (.only [.flushed]) where
  possible := ⟨(), _, rfl⟩
  ok {o _ _} ready h := by
    obtain ⟨taken, pushed, push, next⟩ := bind_ok h
    rcases push_ok ready push with ⟨rfl, advance, same⟩ | ⟨rfl, -⟩
    · obtain ⟨flushed, last, flush, done⟩ := bind_ok next
      cases flushed with
      | false => cases done
      | true =>
        cases done
        -- what the buffer held is now in the sink, and no byte is new
        have first : Effect storage o [] [] pushed := by
          rw [same]
          exact .ofAdvance storage advance (by simp)
        obtain ⟨second, held, -⟩ := flushSink_ok storage first.ready flush
        refine ⟨_, rfl, first.trans second, nofun, fun _ => held.trans ?_⟩
        rw [same]
    · cases next
  error {o _ _} ready h := by
    obtain push | ⟨taken, pushed, push, next⟩ := bind_error h
    · cases push
    refine ⟨(), [], _, [], o, rfl, (Item.course storage).refl ready, .refused rfl ?_⟩
    rcases push_ok ready push with ⟨rfl, advance, same⟩ | ⟨rfl, within, world, unwilling⟩
    · have within : Within o pushed := same ▸ .ofAdvance [] advance
      obtain flush | ⟨flushed, last, flush, done⟩ := bind_error next
      · cases flush
      obtain ⟨effect, -, world, refused⟩ := flushSink_ok storage within.ready flush
      cases flushed with
      | true => cases done
      | false =>
        cases done
        exact Refused.after within (by rw [same])
          ⟨effect.toWithin, world, refused rfl, _, rfl⟩
    · cases next
      exact ⟨within, world, unwilling, _, rfl⟩

/-- The clean-up pushes out what the buffer holds, if the sink does not fail, and leaves it
empty. -/
theorem abandon_ok (o : Output) :
    ∃ done o', abandon o = .ok done o' ∧ o'.held = [] ∧
      o'.world = { o.world with files := o'.world.files } ∧
      (o.sink.Ready o.world.files → Within o o' ∧ (o.sink.Willing → o'.bytes = o.bytes)) := by
  cases pushed : o.sink.writeAll o.world.files o.held with
  | mk whole left =>
    obtain ⟨sink, files⟩ := left
    cases whole with
    | false =>
      refine ⟨(), ⟨[], sink, { o.world with files := files }⟩, ?_, rfl, rfl, fun ready => ⟨?_, ?_⟩⟩
      · simp [abandon, push, pushed, hold_eq, bind, EStateM.bind]
      · obtain ⟨n, advance, -⟩ := Sink.writeAll_advance ready pushed
        exact .ofAdvance [] advance
      · exact fun willing => absurd (Sink.writeAll_willing willing pushed) (by decide)
    | true =>
      cases flushing : sink.flush files with
      | mk done rest =>
        obtain ⟨last, after⟩ := rest
        refine ⟨(), ⟨[], last, { o.world with files := after }⟩, ?_, rfl, rfl, fun ready => ?_⟩
        · simp [abandon, push, pushed, flushSink, flushing, hold_eq, bind, EStateM.bind]
        · have first := Sink.writeAll_taken ready pushed
          have whole := first.trans (Sink.flush_advance first.ready flushing)
          exact ⟨.ofAdvance [] whole, fun _ => by simp [Output.bytes, whole.taken]⟩

theorem guarded_ok {α : Type} {steps : Writing α} {a : α} (h : guarded steps o = .ok a o') :
    steps o = .ok a o' := by
  unfold guarded at h
  split at h
  next ran =>
    cases h
    exact ran
  next => cases h
  next => split at h <;> cases h

/-- What is left of guarded steps that fail: after a crash everything as it was, else an empty
buffer. -/
theorem guarded_error {α : Type} {steps : Writing α} {fault : Fault ExportError}
    (h : guarded steps o = .error fault o') :
    ∃ left, steps o = .error fault left ∧ (fault ≠ .crash → o'.held = []) ∧
      o'.world = { left.world with files := o'.world.files } ∧
      (left.sink.Ready left.world.files →
        Within left o' ∧ (left.sink.Willing → o'.bytes = left.bytes)) := by
  unfold guarded at h
  split at h
  next => cases h
  next left ran =>
    cases h
    exact ⟨_, ran, fun other => absurd rfl other, rfl, fun ready => ⟨.refl ready, fun _ => rfl⟩⟩
  next error left ran =>
    obtain ⟨done, after, cleaned, held, world, kept⟩ := abandon_ok left
    rw [cleaned] at h
    cases h
    exact ⟨left, ran, fun _ => held, world, kept⟩

theorem guarded_follows {α : Type} {steps : Writing α} {plan : Plan Item α}
    (follows : (Item.course storage).Follows steps plan) :
    (Item.course storage).Follows (guarded steps) plan where
  possible := follows.possible
  ok ready h := follows.ok ready (guarded_ok h)
  error ready h := by
    obtain ⟨left, ran, -, world, cleaned⟩ := guarded_error h
    obtain ⟨a, done, item, rest, between, planned, passes, breaks⟩ := follows.error ready ran
    obtain ⟨within, kept⟩ := cleaned breaks.within.ready
    exact ⟨a, done, item, rest, between, planned, passes, breaks.andThen within world kept⟩

/-- Steps that hold nothing back when they report a failure. -/
def Tidy {α : Type} (steps : Writing α) : Prop :=
  ∀ {o error o'}, o.held = [] → steps o = .error (.raised error) o' → o'.held = []

theorem guarded_tidy {α : Type} (steps : Writing α) : Tidy (guarded steps) := by
  intro o error o' _ h
  obtain ⟨left, -, held, -⟩ := guarded_error h
  exact held nofun

/-- What fails before the guarded steps has written nothing. -/
theorem run_guarded_tidy {α β : Type} (step : Run α) (steps : α → Writing β) :
    Tidy (run step >>= fun a => guarded (steps a)) := by
  intro o error o' empty h
  obtain ran | ⟨a, between, -, later⟩ := bind_error h
  · unfold run at ran
    split at ran
    next => cases ran
    next =>
      cases ran
      exact empty
  · obtain ⟨left, -, held, -⟩ := guarded_error later
    exact held nofun

end Writing

/-- Steps that end with pushing everything out leave nothing in the buffer. -/
theorem Writing.follows_ok {α : Type} {storage : Storage} {steps : Writing α} {plan : Plan Item α}
    {o o' : Output} {a : α} (follows : (Item.course storage).Follows steps plan)
    (flushed : ∀ {a items}, plan a items → items.getLast? = some .flushed)
    (ready : o.sink.Ready o.world.files) (h : steps o = .ok a o') :
    ∃ items, plan a items ∧ Effect storage o (Item.body items) (Item.exchanges items) o' ∧
      o'.held = [] := by
  obtain ⟨items, planned, effect, held⟩ := follows.ok ready h
  exact ⟨items, planned, effect, held.flushed (flushed planned)⟩

/-- A sink that is written leaves the world that its steps leave. -/
theorem Run.writing_ok {α : Type} {sink sink' : Sink} {steps : Writing α} {a : α}
    {world world' : World} (h : writing sink steps world = .ok (a, sink') world') :
    ∃ held, steps ⟨[], sink, world⟩ = .ok a ⟨held, sink', world'⟩ := by
  unfold writing at h
  split at h
  next output ran =>
    cases h
    exact ⟨output.held, ran⟩
  next => cases h
  next => cases h

end TableExport
