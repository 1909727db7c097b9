import Mathlib
import TableExport.Proofs.Export.Interruptions

/-!
# Sinks that run full

A sink with limited room takes the front of all that it is offered, however that is cut into writes,
and fails from then on. A projection into such a sink is followed beside one whose sink takes
everything. Step by step both hold the same in the record buffer, are in the same world, and have
offered the same bytes. The first write that does not fit ends the one with limited room. What it
offers once more in its clean-up finds no room, so its sink has been offered in vain whatever the
other run offers later.
-/
namespace TableExport

namespace Sink

/-- Whether there is room for all that is offered. -/
def fits (room : Option Nat) (offered : Bytes) : Bool := room.all fun n => offered.length ≤ n

/-- As much of what is offered as there is room for. -/
def front (room : Option Nat) (offered : Bytes) : Bytes :=
  match room with
  | none => offered
  | some n => offered.take n

/-- A sink with this room in all that has been offered these bytes. -/
def filled (room : Option Nat) (flushFails : Bool) (offered : Bytes) : Sink :=
  .bounded (room.map fun n => n - offered.length) flushFails (front room offered)

variable {room : Option Nat} {flushFails : Bool} {offered : Bytes}

theorem filled_nil (room : Option Nat) (flushFails : Bool) :
    filled room flushFails [] = .bounded room flushFails [] := by
  cases room <;> simp [filled, front]

/-- A sink that has no room left takes nothing more. -/
theorem filled_append_of_le {n : Nat} (full : n ≤ offered.length) (flushFails : Bool) (more : Bytes) :
    filled (some n) flushFails (offered ++ more) = filled (some n) flushFails offered := by
  have none_left : n - (offered ++ more).length = n - offered.length := by
    rw [List.length_append]
    omega
  simp only [filled, front, Option.map_some, none_left, List.take_append_of_le_length full]

theorem filled_append (full : fits room offered = false) (flushFails : Bool) (more : Bytes) :
    filled room flushFails (offered ++ more) = filled room flushFails offered := by
  cases room with
  | none => simp [fits] at full
  | some n =>
    have short : n < offered.length := by simpa [fits] using full
    exact filled_append_of_le short.le flushFails more

theorem fits_append (full : fits room offered = false) (more : Bytes) :
    fits room (offered ++ more) = false := by
  cases room with
  | none => simp [fits] at full
  | some n =>
    have short : n < offered.length := by simpa [fits] using full
    simp [fits]
    omega

/-! ## Writes -/

variable {data : Bytes}

theorem writeAll_nil (sink : Sink) (fs : FileSystem) : sink.writeAll fs [] = (true, sink, fs) := by
  rw [writeAll, if_pos rfl]

/-- A sink without room fails at once. -/
theorem writeAll_full {n : Nat} (full : n ≤ offered.length) (flushFails : Bool) (fs : FileSystem)
    (some_ : data ≠ []) : (filled (some n) flushFails offered).writeAll fs data =
      (false, filled (some n) flushFails offered, fs) := by
  have none_left : n - offered.length = 0 := Nat.sub_eq_zero_of_le full
  have offer : (filled (some n) flushFails offered).offer fs data =
      (none, filled (some n) flushFails offered, fs) := by
    simp [filled, Sink.offer, none_left]
  rw [writeAll, if_neg some_, offer]

/-- A sink with room takes the front of what it is offered, and everything if it fits. -/
theorem offer_filled (vacant : ∀ n, room = some n → offered.length < n) (flushFails : Bool)
    (fs : FileSystem) (some_ : data ≠ []) :
    ∃ k, (filled room flushFails offered).offer fs data =
        (some (k + 1), filled room flushFails (offered ++ data), fs) ∧
      (fits room (offered ++ data) = true ↔ data.length ≤ k + 1) := by
  have length : 0 < data.length := List.length_pos_iff.mpr some_
  cases room with
  | none =>
    refine ⟨data.length - 1, ?_, ?_⟩
    · rw [Nat.sub_add_cancel length]
      rfl
    · simp [fits, Nat.sub_add_cancel length]
  | some n =>
    have left : 0 < n - offered.length := Nat.sub_pos_of_lt (vacant n rfl)
    refine ⟨min (n - offered.length) data.length - 1, ?_, ?_⟩
    · have before : offered.take n = offered := List.take_of_length_le (vacant n rfl).le
      rw [Nat.sub_add_cancel (Nat.lt_min.mpr ⟨left, length⟩)]
      have taken : data.take (min (n - offered.length) data.length) =
          data.take (n - offered.length) := List.take_eq_take_iff.mpr (by omega)
      have room : n - offered.length - min (n - offered.length) data.length =
          n - (offered.length + data.length) := by omega
      simp only [filled, Sink.offer, Option.map_some, if_neg left.ne', front, before, taken, room,
        List.take_append, List.length_append]
    · rw [Nat.sub_add_cancel (Nat.lt_min.mpr ⟨left, length⟩)]
      simp only [fits, Option.all_some, List.length_append, decide_eq_true_eq]
      omega

/-- However a write is cut up, the front of it is taken that there is room for. -/
theorem writeAll_filled (room : Option Nat) (flushFails : Bool) (offered data : Bytes)
    (fs : FileSystem) :
    (filled room flushFails offered).writeAll fs data =
      (data.isEmpty || fits room (offered ++ data), filled room flushFails (offered ++ data), fs) := by
  by_cases some_ : data = []
  · subst some_
    simp [writeAll_nil]
  rw [List.isEmpty_eq_false_iff.mpr some_, Bool.false_or]
  by_cases vacant : ∀ n, room = some n → offered.length < n
  · obtain ⟨k, offer, whole⟩ := offer_filled vacant flushFails fs some_
    rw [writeAll, if_neg some_, offer]
    cases fitting : fits room (offered ++ data) with
    | true =>
      have nothing : data.drop (k + 1) = [] := List.drop_of_length_le (whole.mp fitting)
      simp only [nothing, writeAll_nil]
    | false =>
      -- the rest is offered to a sink without room
      have rest : data.drop (k + 1) ≠ [] := by
        rw [ne_eq, List.drop_eq_nil_iff, ← whole, fitting]
        exact Bool.false_ne_true
      cases room with
      | none => simp [fits] at fitting
      | some n =>
        have full : n ≤ (offered ++ data).length := by
          have short : n < (offered ++ data).length := by simpa [fits] using fitting
          exact short.le
        simp only [writeAll_full full flushFails fs rest]
  · push Not at vacant
    obtain ⟨n, rfl, full⟩ := vacant
    have short : fits (some n) (offered ++ data) = false := by
      have length : 0 < data.length := List.length_pos_iff.mpr some_
      simp [fits]
      omega
    rw [writeAll_full full flushFails fs some_, short, filled_append_of_le full]

end Sink

namespace Writing

open Sink (filled fits)

variable {α β : Type} {room : Option Nat} {flushFails : Bool}

/-! ## Two runs side by side -/

/-- How a run into a sink with limited room stands when the run beside it has come to a result, with
these bytes in the buffer and these offered in all. If it passes, it has come to the same result;
else it has failed to write, and nothing that it holds can reach its sink any more. -/
inductive Beside (room : Option Nat) (flushFails passes : Bool) (a : α) (held offered : Bytes)
    (world : World) : EStateM.Result (Fault ExportError) Output α → Prop
  | along (passed : passes = true) :
    Beside room flushFails passes a held offered world
      (.ok a ⟨held, filled room flushFails offered, world⟩)
  | full {context : String} {left : Bytes} {last : World} (failed : passes = false)
    (spent : fits room offered = false ∨ left = []) :
    Beside room flushFails passes a held offered world
      (.error (.raised (.write context .refused)) ⟨left, filled room flushFails offered, last⟩)

/-- Steps whose run into a sink with limited room goes along with a run whose sink takes everything,
as far as all that is offered fits and, where the steps flush, flushing succeeds. -/
def Paced (room : Option Nat) (flushFails flushes : Bool) (steps : Writing α) : Prop :=
  ∀ ⦃held offered world a o⦄, steps ⟨held, filled none false offered, world⟩ = .ok a o →
    ∃ held' more world', o = ⟨held', filled none false (offered ++ more), world'⟩ ∧
      (fits room offered = true →
        Beside room flushFails (fits room (offered ++ more) && !(flushes && flushFails)) a held'
          (offered ++ more) world' (steps ⟨held, filled room flushFails offered, world⟩))

/-- Steps that neither write nor look at what is written. -/
def Quiet (steps : Writing α) : Prop :=
  ∀ ⦃held sink world a o⦄, steps ⟨held, sink, world⟩ = .ok a o →
    ∃ world', o = ⟨held, sink, world'⟩ ∧
      ∀ held' sink', steps ⟨held', sink', world⟩ = .ok a ⟨held', sink', world'⟩

theorem quiet_pure (a : α) : Quiet (pure a) := by
  intro held sink world _ o h
  cases h
  exact ⟨world, rfl, fun _ _ => rfl⟩

theorem quiet_run (step : Run α) : Quiet (run step) := by
  intro held sink world a o h
  unfold run at h
  split at h
  next ran =>
    cases h
    refine ⟨_, rfl, fun held' sink' => ?_⟩
    simp only [run, ran]
  next => cases h

theorem Quiet.bind {first : Writing α} {next : α → Writing β} (quiet : Quiet first)
    (onward : ∀ a, Quiet (next a)) : Quiet (first >>= next) := by
  intro held sink world b o h
  obtain ⟨a, between, ran, later⟩ := bind_ok h
  obtain ⟨world', rfl, same⟩ := quiet ran
  obtain ⟨world'', rfl, again⟩ := onward a later
  refine ⟨world'', rfl, fun held' sink' => ?_⟩
  simp only [Bind.bind, EStateM.bind, same, again]

theorem Quiet.paced {steps : Writing α} (quiet : Quiet steps) (room : Option Nat)
    (flushFails : Bool) : Paced room flushFails false steps := by
  intro held offered world a o h
  obtain ⟨world', rfl, same⟩ := quiet h
  refine ⟨held, [], world', by rw [List.append_nil], fun fitting => ?_⟩
  rw [same, List.append_nil]
  exact .along (by simp [fitting])

/-- A run that has failed stays as it is, whatever the run beside it does. -/
theorem Beside.bind_full {first : Writing α} {next : α → Writing β} {flushes : Bool} {a : α} {b : β}
    {start : Output} {held held' offered more : Bytes} {world world' : World}
    (beside : Beside room flushFails false a held offered world (first start))
    (spent : fits room offered = false) :
    Beside room flushFails (fits room (offered ++ more) && !(flushes && flushFails)) b held'
      (offered ++ more) world' ((first >>= next) start) := by
  simp only [Bind.bind, EStateM.bind]
  generalize first start = result at beside
  cases beside with
  | along passed => cases passed
  | full failed left =>
    rw [Sink.fits_append spent, Bool.false_and, ← Sink.filled_append spent flushFails more]
    exact .full rfl (.inl (Sink.fits_append spent more))

/-- Steps that do not flush may be followed by any others. -/
theorem Paced.bind {first : Writing α} {next : α → Writing β} {flushes : Bool}
    (paced : Paced room flushFails false first)
    (onward : ∀ a, Paced room flushFails flushes (next a)) :
    Paced room flushFails flushes (first >>= next) := by
  intro held offered world b o h
  obtain ⟨a, between, ran, later⟩ := bind_ok h
  obtain ⟨held', more, world', rfl, beside⟩ := paced ran
  obtain ⟨held'', rest, world'', rfl, beside'⟩ := onward a later
  refine ⟨held'', more ++ rest, world'', by rw [List.append_assoc], fun fitting => ?_⟩
  rw [← List.append_assoc]
  have here := beside fitting
  rw [Bool.false_and, Bool.not_false, Bool.and_true] at here
  cases still : fits room (offered ++ more) with
  | true =>
    rw [still] at here
    simp only [Bind.bind, EStateM.bind]
    generalize first ⟨held, filled room flushFails offered, world⟩ = result at here
    cases here with
    | along passed => exact beside' still
    | full failed => cases failed
  | false =>
    rw [still] at here
    exact here.bind_full still

/-- Nothing that is done after a flush writes. -/
theorem Paced.then {first : Writing α} {next : α → Writing β}
    (paced : Paced room flushFails true first) (quiet : ∀ a, Quiet (next a)) :
    Paced room flushFails true (first >>= next) := by
  intro held offered world b o h
  obtain ⟨a, between, ran, later⟩ := bind_ok h
  obtain ⟨held', more, world', rfl, beside⟩ := paced ran
  obtain ⟨world'', rfl, same⟩ := quiet a later
  refine ⟨held', more, world'', rfl, fun fitting => ?_⟩
  have here := beside fitting
  simp only [Bind.bind, EStateM.bind]
  generalize first ⟨held, filled room flushFails offered, world⟩ = result at here
  cases here with
  | along passed =>
    simp only [same]
    exact .along passed
  | full failed spent => exact .full failed spent

/-! ## Records -/

theorem hold_paced (room : Option Nat) (flushFails : Bool) (bytes : Bytes) :
    Paced room flushFails false (hold bytes) := by
  intro held offered world a o h
  cases h
  refine ⟨bytes, [], world, by rw [List.append_nil], fun fitting => ?_⟩
  rw [List.append_nil]
  exact .along (by simp [fitting])

theorem push_filled (room : Option Nat) (flushFails : Bool) (held offered : Bytes) (world : World) :
    push ⟨held, filled room flushFails offered, world⟩ =
      .ok (held.isEmpty || fits room (offered ++ held))
        ⟨if held.isEmpty || fits room (offered ++ held) then [] else held,
          filled room flushFails (offered ++ held), world⟩ := by
  simp only [push, Sink.writeAll_filled]

/-- A chunk is pushed as a whole, or the sink is full. -/
theorem handOver_cons (artifact : String) (room : Option Nat) (flushFails : Bool) (chunk : Bytes)
    (rest : List Bytes) (held offered : Bytes) (world : World) :
    handOver artifact (chunk :: rest) ⟨held, filled room flushFails offered, world⟩ =
      if chunk.isEmpty || fits room (offered ++ chunk) then
        handOver artifact rest ⟨[], filled room flushFails (offered ++ chunk), world⟩
      else .error (.raised (.write s!"Failed to write record to {artifact}" .refused))
        ⟨chunk, filled room flushFails (offered ++ chunk), world⟩ := by
  have pushed := push_filled room flushFails chunk offered world
  simp only [handOver, Bind.bind, EStateM.bind, hold_eq, pushed]
  split
  next => rfl
  next => rfl

theorem handOver_paced (artifact : String) (room : Option Nat) (flushFails : Bool)
    (chunks : List Bytes) : Paced room flushFails false (handOver artifact chunks) := by
  induction chunks with
  | nil => exact (quiet_pure ()).paced room flushFails
  | cons chunk rest ih =>
    intro held offered world a o h
    rw [handOver_cons, if_pos (by simp [fits])] at h
    obtain ⟨held', more, world', rfl, beside⟩ := ih h
    refine ⟨held', chunk ++ more, world', by rw [List.append_assoc], fun fitting => ?_⟩
    rw [handOver_cons, ← List.append_assoc]
    cases here : fits room (offered ++ chunk) with
    | true => simpa [here] using beside here
    | false =>
      -- a chunk without bytes fits where everything before it does
      have some_ : chunk.isEmpty = false := by
        rw [List.isEmpty_eq_false_iff]
        rintro rfl
        rw [List.append_nil, fitting] at here
        cases here
      rw [some_, Sink.fits_append here, ← Sink.filled_append here flushFails more]
      exact .full rfl (.inl (Sink.fits_append here more))

theorem record_paced (artifact : String) (room : Option Nat) (flushFails : Bool)
    (fields : List String) : Paced room flushFails false (record artifact fields) := by
  intro held offered world a o h
  exact ((handOver_paced artifact room flushFails _).bind fun _ =>
    hold_paced room flushFails _) h

theorem records_paced (artifact : String) (room : Option Nat) (flushFails : Bool)
    (rows : List (List String)) : Paced room flushFails false (records artifact rows) := by
  induction rows with
  | nil => exact (quiet_pure ()).paced room flushFails
  | cons fields rest ih => exact (record_paced artifact room flushFails fields).bind fun _ => ih

/-! ## The end and the clean-up -/

theorem flushSink_filled (room : Option Nat) (flushFails : Bool) (held offered : Bytes)
    (world : World) : flushSink ⟨held, filled room flushFails offered, world⟩ =
      .ok (!flushFails) ⟨held, filled room flushFails offered, world⟩ := by
  cases flushFails <;> rfl

theorem finish_filled (artifact : String) (room : Option Nat) (flushFails : Bool)
    (held offered : Bytes) (world : World) :
    finish artifact ⟨held, filled room flushFails offered, world⟩ =
      if held.isEmpty || fits room (offered ++ held) then
        if flushFails then .error (.raised (.write s!"Failed to flush {artifact}" .refused))
          ⟨[], filled room flushFails (offered ++ held), world⟩
        else .ok () ⟨[], filled room flushFails (offered ++ held), world⟩
      else .error (.raised (.write s!"Failed to flush {artifact}" .refused))
        ⟨held, filled room flushFails (offered ++ held), world⟩ := by
  simp only [finish, Bind.bind, EStateM.bind, push_filled]
  cases held.isEmpty || fits room (offered ++ held) with
  | true =>
    cases flushFails <;> rfl
  | false => rfl

theorem finish_paced (artifact : String) (room : Option Nat) (flushFails : Bool) :
    Paced room flushFails true (finish artifact) := by
  intro held offered world a o h
  rw [finish_filled, if_pos (by simp [fits]), if_neg Bool.false_ne_true] at h
  cases h
  refine ⟨[], held, world, rfl, fun fitting => ?_⟩
  -- an empty buffer adds nothing to what fits already
  have taken : (held.isEmpty || fits room (offered ++ held)) = fits room (offered ++ held) := by
    cases held with
    | nil => rw [List.append_nil, fitting, Bool.or_true]
    | cons byte rest => rfl
  rw [finish_filled, taken, Bool.true_and]
  cases here : fits room (offered ++ held) with
  | true =>
    cases flushFails with
    | true => exact .full rfl (.inr rfl)
    | false => exact .along rfl
  | false => exact .full rfl (.inl here)

/-- A clean-up adds nothing to a sink that is full, or from an empty buffer. -/
theorem abandon_filled {left offered : Bytes} (spent : fits room offered = false ∨ left = [])
    (flushFails : Bool) (world : World) :
    abandon ⟨left, filled room flushFails offered, world⟩ =
      .ok () ⟨[], filled room flushFails offered, world⟩ := by
  have same : filled room flushFails (offered ++ left) = filled room flushFails offered := by
    obtain full | rfl := spent
    · exact Sink.filled_append full flushFails left
    · rw [List.append_nil]
  simp only [abandon, Bind.bind, EStateM.bind, push_filled, same]
  cases left.isEmpty || fits room (offered ++ left) with
  | true => simp only [if_true, EStateM.bind, flushSink_filled, hold_eq]
  | false => simp only [Bool.false_eq_true, if_false, hold_eq]

theorem Paced.guarded {steps : Writing α} {flushes : Bool}
    (paced : Paced room flushFails flushes steps) :
    Paced room flushFails flushes (guarded steps) := by
  intro held offered world a o h
  obtain ⟨held', more, world', rfl, beside⟩ := paced (guarded_ok h)
  refine ⟨held', more, world', rfl, fun fitting => ?_⟩
  have here := beside fitting
  simp only [Writing.guarded]
  generalize steps ⟨held, filled room flushFails offered, world⟩ = result at here
  cases here with
  | along passed => exact .along passed
  | full failed spent =>
    simp only [abandon_filled spent]
    exact .full failed (.inr rfl)

end Writing

/-! ## Projections -/

namespace Projection
open Writing

theorem listing_paced (artifact : String) (room : Option Nat) (flushFails : Bool)
    (header : List String) (rows : List (List String)) :
    Paced room flushFails true (Writing.guarded (do
      Writing.record artifact header
      Writing.records artifact rows
      Writing.finish artifact)) :=
  ((record_paced artifact room flushFails header).bind fun _ =>
    (records_paced artifact room flushFails rows).bind fun _ =>
    finish_paced artifact room flushFails).guarded

theorem table_paced (storage : Storage) (room : Option Nat) (flushFails : Bool) (name : TableName)
    (limit : Option UInt32) : Paced room flushFails true (Project.table storage name limit) := by
  refine ((quiet_run _).paced room flushFails).bind fun columns => Paced.guarded ?_
  refine (record_paced _ room flushFails _).bind fun _ =>
    ((quiet_run _).paced room flushFails).bind fun rows =>
    (records_paced _ room flushFails _).bind fun _ => ?_
  exact (finish_paced _ room flushFails).then fun _ => (quiet_run _).bind fun _ => quiet_pure _

theorem counts_paced (storage : Storage) (room : Option Nat) (flushFails : Bool)
    (names : List TableName) : Paced room flushFails false (Project.counts storage names) := by
  induction names with
  | nil => exact (quiet_pure ()).paced room flushFails
  | cons name rest ih =>
    exact ((quiet_run _).paced room flushFails).bind fun _ =>
      (record_paced _ room flushFails _).bind fun _ => ih

theorem steps_paced (storage : Storage) (projection : Projection) (room : Option Nat)
    (flushFails : Bool) : Paced room flushFails true (projection.steps storage) := by
  cases projection with
  | table name limit =>
    exact (table_paced storage room flushFails name limit).then fun _ => quiet_pure _
  | tableNames names => exact (listing_paced _ room flushFails _ _).then fun _ => quiet_pure _
  | tableMetadata names =>
    refine Paced.then (Paced.guarded ?_) fun _ => quiet_pure _
    exact (record_paced _ room flushFails _).bind fun _ =>
      (counts_paced storage room flushFails names).bind fun _ => finish_paced _ room flushFails
  | disabledRules =>
    refine Paced.then ?_ fun _ => quiet_pure _
    exact ((quiet_run _).paced room flushFails).bind fun rules =>
      listing_paced _ room flushFails _ _

variable {storage : Storage} {projection : Projection} {exchanges : List Exchange}
  {header : List String} {records : List (List String)} {count : Option Nat} {world : World}

/-- Whatever room a sink has, it ends up with as much of what the projection writes as fits. -/
theorem steps_filled (shown : projection.Shows exchanges header records count)
    (gives : storage.Gives world.calls exchanges) (room : Option Nat) (flushFails : Bool) :
    if Sink.fits room (Csv.document (header :: records)) && !flushFails then
      ∃ after, projection.steps storage ⟨[], .bounded room flushFails [], world⟩ = .ok count after ∧
        after.sink = Sink.filled room flushFails (Csv.document (header :: records))
    else
      ∃ context after, projection.steps storage ⟨[], .bounded room flushFails [], world⟩ =
          .error (.raised (.write context .refused)) after ∧
        after.sink = Sink.filled room flushFails (Csv.document (header :: records)) := by
  have ready : Sink.endless.Ready world.files := trivial
  obtain ⟨after, ran, effect, empty⟩ :=
    @steps_answered storage projection records ⟨[], .endless, world⟩ _ _ _ ready ⟨rfl, rfl⟩ shown gives
  have start : Sink.endless = Sink.filled none false [] := (Sink.filled_nil none false).symm
  rw [start] at ran
  obtain ⟨held, more, world', rfl, beside⟩ := steps_paced storage projection room flushFails ran
  -- the run whose sink takes everything has written the document
  have bytes := effect.bytes
  obtain rfl : held = [] := empty
  have whole : more = Csv.document (header :: records) := by
    simpa [Output.bytes, Sink.taken, Sink.filled, Sink.front, Sink.endless] using bytes
  have here := beside (by cases room <;> simp [Sink.fits])
  rw [List.nil_append, whole, Sink.filled_nil, Bool.true_and] at here
  generalize projection.steps storage ⟨[], .bounded room flushFails [], world⟩ = result at here
  cases here with
  | along passed =>
    rw [if_pos passed]
    exact ⟨_, rfl, rfl⟩
  | full failed spent =>
    rw [failed, if_neg Bool.false_ne_true]
    exact ⟨_, _, rfl, rfl⟩

/-! ## Main result -/

/-- Of a projection whose questions are all answered, a sink that takes only so many bytes gets
exactly the first of those that an endless sink gets. The projection succeeds if and only if that is
all of them, and fails to write otherwise. A sink that fails only when it is flushed gets all of
them, and the projection fails to write. -/
theorem front_written (shown : projection.Shows exchanges header records count)
    (gives : storage.Gives world.calls exchanges) :
    (∃ after, projection.steps storage ⟨[], .endless, world⟩ = .ok count after ∧
      after.sink.taken after.world.files = Csv.document (header :: records)) ∧
    (∀ n, if (Csv.document (header :: records)).length ≤ n then
        ∃ after, projection.steps storage ⟨[], .bounded (some n) false [], world⟩ = .ok count after ∧
          after.sink.taken after.world.files = (Csv.document (header :: records)).take n
      else
        ∃ context after, projection.steps storage ⟨[], .bounded (some n) false [], world⟩ =
            .error (.raised (.write context .refused)) after ∧
          after.sink.taken after.world.files = (Csv.document (header :: records)).take n) ∧
    ∃ context after, projection.steps storage ⟨[], .bounded none true [], world⟩ =
        .error (.raised (.write context .refused)) after ∧
      after.sink.taken after.world.files = Csv.document (header :: records) := by
  have steps := @steps_filled storage _ _ _ _ _ world shown gives
  refine ⟨?_, fun n => ?_, ?_⟩
  · obtain ⟨after, ran, sink⟩ := by simpa [Sink.fits] using steps none false
    exact ⟨after, ran, by rw [sink]; rfl⟩
  · have limited := steps (some n) false
    rw [Bool.not_false, Bool.and_true] at limited
    split
    next enough =>
      rw [if_pos (by simpa [Sink.fits] using enough)] at limited
      obtain ⟨after, ran, sink⟩ := limited
      exact ⟨after, ran, by rw [sink]; rfl⟩
    next short =>
      rw [if_neg (by simpa [Sink.fits] using short)] at limited
      obtain ⟨context, after, ran, sink⟩ := limited
      exact ⟨context, after, ran, by rw [sink]; rfl⟩
  · obtain ⟨context, after, ran, sink⟩ := by simpa [Sink.fits] using steps none true
    exact ⟨context, after, ran, by rw [sink]; rfl⟩

/-- Eight bytes are the header of a table and the first byte of its first record. -/
theorem front_written_eight :
    ∃ context after, (table ⟨"t", by decide⟩ none).steps unruly.storage
        ⟨[], .bounded (some 8) false [], ⟨⟨[], []⟩, [], 0, [], []⟩⟩ =
        .error (.raised (.write context .refused)) after ∧
      after.sink.taken after.world.files = Bytes.ofText "a,\"b,\"\n\"" := by
  have shown := Shows.table ⟨"t", by decide⟩ none [⟨"a", "TEXT"⟩, ⟨"b,", "TEXT"⟩]
    [⟨[("a", .text "x,\"y\"\r\n"), ("b", .text "")]⟩, ⟨[("c", .text "z")]⟩]
  have gives : unruly.storage.Gives [] (tableExchanges ⟨"t", by decide⟩ none
      [⟨"a", "TEXT"⟩, ⟨"b,", "TEXT"⟩]
      [⟨[("a", .text "x,\"y\"\r\n"), ("b", .text "")]⟩, ⟨[("c", .text "z")]⟩]) :=
    ⟨by cbv, by cbv, trivial⟩
  have limited := (@front_written _ _ _ _ _ _ ⟨⟨[], []⟩, [], 0, [], []⟩ shown gives).2.1 8
  rw [if_neg (by decide +kernel)] at limited
  obtain ⟨context, after, ran, taken⟩ := limited
  refine ⟨context, after, ran, ?_⟩
  rw [taken]
  decide +kernel

end Projection
end TableExport
