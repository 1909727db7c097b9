import TableExport.Proofs.FileSystem.Overlay
import TableExport.Target.Sink

/-!
# Bytes in sinks

A sink that takes bytes has them after all it took before, wherever it keeps them:
in its file, pending, or in memory. Nothing but its own file is changed.
-/
namespace TableExport

namespace Sink

open FileSystem (SameBut content?_writeAt_end sameBut_writeAt)

/-- The bytes a sink has taken. A file sink has what its file holds and what is pending. -/
def taken (sink : Sink) (fs : FileSystem) : Bytes :=
  match sink with
  | .file place _ _ pending => (fs.content? place).getD [] ++ pending
  | .buffer _ _ bytes => bytes
  | .bounded _ _ bytes => bytes

/-- The file of a sink is there, and the next write is at its end. -/
def Ready (sink : Sink) (fs : FileSystem) : Prop :=
  match sink with
  | .file place _ offset _ => (fs.content? place).map List.length = some offset
  | .buffer _ _ _ => True
  | .bounded _ _ _ => True

def place? : Sink → Option Place
  | .file place _ _ _ => some place
  | .buffer _ _ _ => none
  | .bounded _ _ _ => none

/-- A sink without the bytes it has taken, and without the room it has left if that is
limited. -/
def origin : Sink → Sink
  | .file place path _ _ => .file place path 0 []
  | .buffer key contentType _ => .buffer key contentType []
  | .bounded room flushFails _ => .bounded (room.map fun _ => 0) flushFails []

/-- The sink never fails. -/
def Willing : Sink → Prop
  | .file _ _ _ _ => True
  | .buffer _ _ _ => True
  | .bounded room flushFails _ => room = none ∧ flushFails = false

theorem willing_origin (sink : Sink) : sink.origin.Willing ↔ sink.Willing := by
  cases sink <;> simp [origin, Willing]

theorem willing_of_origin {sink sink' : Sink} (origin : sink'.origin = sink.origin)
    (willing : sink.Willing) : sink'.Willing := by
  rw [← willing_origin, origin, willing_origin]
  exact willing

theorem place?_origin (sink : Sink) : sink.origin.place? = sink.place? := by cases sink <;> rfl

theorem file_of_origin {sink : Sink} {place : Place} {path : String}
    (h : sink.origin = .file place path 0 []) :
    ∃ offset pending, sink = .file place path offset pending := by
  cases sink with
  | file place' path' offset pending =>
    cases h
    exact ⟨offset, pending, rfl⟩
  | buffer key contentType bytes => cases h
  | bounded room flushFails bytes => cases h

theorem buffer_of_origin {sink : Sink} {key : String} {contentType : ContentType}
    (h : sink.origin = .buffer key contentType []) (fs : FileSystem) :
    sink = .buffer key contentType (sink.taken fs) := by
  cases sink with
  | file place path offset pending => cases h
  | buffer key' contentType' bytes =>
    cases h
    rfl
  | bounded room flushFails bytes => cases h

/-- The sink has taken some data and is ready for more. -/
structure Advance (sink : Sink) (fs : FileSystem) (data : Bytes) (sink' : Sink)
    (fs' : FileSystem) : Prop where
  origin : sink'.origin = sink.origin
  ready : sink'.Ready fs'
  taken : sink'.taken fs' = sink.taken fs ++ data
  files : SameBut sink.place? fs fs'

namespace Advance
variable {sink sink' sink'' : Sink} {fs fs' fs'' : FileSystem} {data more : Bytes}

theorem refl (ready : sink.Ready fs) : Advance sink fs [] sink fs :=
  ⟨rfl, ready, by simp, .refl ..⟩

theorem place? (advance : Advance sink fs data sink' fs') : sink'.place? = sink.place? := by
  rw [← place?_origin, advance.origin, place?_origin]

theorem trans (first : Advance sink fs data sink' fs')
    (second : Advance sink' fs' more sink'' fs'') :
    Advance sink fs (data ++ more) sink'' fs'' where
  origin := second.origin.trans first.origin
  ready := second.ready
  taken := by rw [second.taken, first.taken, List.append_assoc]
  files := first.files.trans (first.place? ▸ second.files)

/-- A file sink takes data by writing at the end of its file and keeping the rest. -/
theorem ofFile {place : Place} {path : String} {content pending : Bytes} (written kept : Bytes)
    (before : fs.content? place = some content)
    (after : fs'.content? place = some (content ++ written))
    (bytes : written ++ kept = pending ++ data) (files : SameBut (some place) fs fs') :
    Advance (.file place path content.length pending) fs data
      (.file place path (content.length + written.length) kept) fs' where
  origin := rfl
  ready := by simp [Ready, after]
  taken := by simp [Sink.taken, before, after, bytes]
  files := files

end Advance

theorem Ready.content {fs : FileSystem} {place : Place} {path : String} {offset : Nat}
    {pending : Bytes} (ready : (Sink.file place path offset pending).Ready fs) :
    ∃ content, fs.content? place = some content ∧ offset = content.length := by
  cases held : fs.content? place with
  | none => simp [Ready, held] at ready
  | some content => exact ⟨content, rfl, by simpa [Ready, held, eq_comm] using ready⟩

/-! ## Operations -/

theorem settle_advance {sink sink' : Sink} {fs fs' : FileSystem} (ready : sink.Ready fs)
    (h : sink.settle fs = (sink', fs')) : Advance sink fs [] sink' fs' := by
  cases sink with
  | file place path offset pending =>
    obtain ⟨content, held, rfl⟩ := ready.content
    cases h
    exact .ofFile _ _ held (content?_writeAt_end pending held) (by simp) (sameBut_writeAt ..)
  | buffer key contentType bytes =>
    cases h
    exact .refl ready
  | bounded room flushFails bytes =>
    cases h
    exact .refl ready

private theorem offerFile_advance {fs fs' : FileSystem} {place : Place} {path : String}
    {offset : Nat} {pending data : Bytes} {count : Option Nat} {sink' : Sink}
    (ready : (Sink.file place path offset pending).Ready fs)
    (h : (Sink.file place path offset pending).offer fs data = (count, sink', fs')) :
    count = some data.length ∧ Advance (.file place path offset pending) fs data sink' fs' := by
  obtain ⟨content, held, rfl⟩ := ready.content
  have settled := content?_writeAt_end pending held
  simp only [offer] at h
  split at h
  next => -- all of it stays pending
    cases h
    exact ⟨rfl, .ofFile [] _ held (by simpa using held) rfl (.refl ..)⟩
  next full =>
    by_cases beyond : fileBuffer < pending.length + data.length
    · simp only [beyond, if_true] at h
      split at h
      next => -- what was pending is written, then the data
        cases h
        refine ⟨rfl, ?_⟩
        have both := content?_writeAt_end data settled
        rw [List.length_append, List.append_assoc] at both
        have advance : Advance (.file place path content.length pending) fs data _ _ :=
          .ofFile (pending ++ data) [] held both (by simp) ((sameBut_writeAt ..).trans (sameBut_writeAt ..))
        rwa [List.length_append, ← Nat.add_assoc] at advance
      next => -- what was pending is written, and the data is pending now
        cases h
        exact ⟨rfl, .ofFile _ _ held settled (by simp) (sameBut_writeAt ..)⟩
    · simp only [beyond, if_false] at h
      split at h
      next large => -- the data alone fills the buffer, so nothing was pending
        cases h
        have none : pending = [] := by
          apply List.eq_nil_of_length_eq_zero
          omega
        subst none
        exact ⟨rfl, .ofFile _ _ held (content?_writeAt_end data held) (by simp) (sameBut_writeAt ..)⟩
      next =>
        cases h
        exact ⟨rfl, .ofFile [] _ held (by simpa using held) rfl (.refl ..)⟩

/-- A sink takes the front part of what it is offered, or fails and stays as it is. -/
theorem offer_advance {sink sink' : Sink} {fs fs' : FileSystem} {data : Bytes}
    {count : Option Nat} (ready : sink.Ready fs)
    (h : sink.offer fs data = (count, sink', fs')) :
    Advance sink fs (data.take (count.getD 0)) sink' fs' := by
  cases sink with
  | file place path offset pending =>
    obtain ⟨rfl, advance⟩ := offerFile_advance ready h
    simpa using advance
  | buffer key contentType bytes =>
    cases h
    exact ⟨rfl, trivial, by simp [taken], .refl ..⟩
  | bounded room flushFails bytes =>
    cases room with
    | none =>
      cases h
      exact ⟨rfl, trivial, by simp [taken], .refl ..⟩
    | some room =>
      simp only [offer] at h
      split at h
      next =>
        cases h
        simpa using Advance.refl ready
      next =>
        cases h
        exact ⟨rfl, trivial, by simp [taken], .refl ..⟩

/-- Of all that is written, a front part is taken; it is everything if no failure is
reported. -/
theorem writeAll_advance {sink sink' : Sink} {fs fs' : FileSystem} {data : Bytes} {all : Bool}
    (ready : sink.Ready fs) (h : sink.writeAll fs data = (all, sink', fs')) :
    ∃ n, Advance sink fs (data.take n) sink' fs' ∧ (all = true → data.length ≤ n) := by
  fun_induction writeAll sink fs data with
  | case1 sink fs =>
    cases h
    exact ⟨0, .refl ready, fun _ => Nat.le_refl 0⟩
  -- a sink that fails, or takes nothing of what is left, ends the writing
  | case2 sink fs data some_ left files offered =>
    cases h
    exact ⟨0, by simpa using offer_advance ready offered, nofun⟩
  | case3 sink fs data some_ left files offered =>
    cases h
    exact ⟨0, by simpa using offer_advance ready offered, nofun⟩
  | case4 sink fs data some_ n left files offered ih =>
    have first := offer_advance ready offered
    -- one part is taken here and another by the writing of the rest
    obtain ⟨m, second, whole⟩ := ih first.ready h
    refine ⟨n + 1 + m, ?_, fun all => ?_⟩
    · rw [List.take_add]
      exact first.trans second
    · have rest := whole all
      rw [List.length_drop] at rest
      omega

theorem writeAll_taken {sink sink' : Sink} {fs fs' : FileSystem} {data : Bytes}
    (ready : sink.Ready fs) (h : sink.writeAll fs data = (true, sink', fs')) :
    Advance sink fs data sink' fs' := by
  obtain ⟨n, advance, whole⟩ := writeAll_advance ready h
  rwa [List.take_of_length_le (whole rfl)] at advance

theorem flush_advance {sink sink' : Sink} {fs fs' : FileSystem} {done : Bool}
    (ready : sink.Ready fs) (h : sink.flush fs = (done, sink', fs')) :
    Advance sink fs [] sink' fs' := by
  unfold flush at h
  split at h
  next =>
    cases h
    exact .refl ready
  next => exact settle_advance ready (Prod.mk.inj h).2

/-! ## Sinks that never fail -/

theorem offer_willing {sink : Sink} (willing : sink.Willing) (fs : FileSystem) (data : Bytes) :
    (sink.offer fs data).1 = some data.length := by
  cases sink with
  | file place path offset pending =>
    simp only [offer]
    split
    next => rfl
    next => split <;> rfl
  | buffer key contentType bytes => rfl
  | bounded room flushFails bytes =>
    obtain ⟨rfl, -⟩ := willing
    rfl

theorem writeAll_willing {sink sink' : Sink} {fs fs' : FileSystem} {data : Bytes} {all : Bool}
    (willing : sink.Willing) (h : sink.writeAll fs data = (all, sink', fs')) : all = true := by
  fun_induction writeAll sink fs data with
  | case1 sink fs =>
    cases h
    rfl
  -- everything is taken at once, so no offer fails and nothing is left for another one
  | case2 sink fs data some_ left files offered =>
    have whole := offer_willing willing fs data
    simp [offered] at whole
  | case3 sink fs data some_ left files offered =>
    have whole := offer_willing willing fs data
    simp only [offered, Option.some.injEq] at whole
    exact absurd (List.eq_nil_of_length_eq_zero whole.symm) some_
  | case4 sink fs data some_ n left files offered ih =>
    have whole := offer_willing willing fs data
    simp only [offered, Option.some.injEq] at whole
    rw [List.drop_of_length_le (by omega), writeAll, if_pos rfl] at h
    cases h
    rfl

theorem flush_willing {sink sink' : Sink} {fs fs' : FileSystem} {done : Bool}
    (willing : sink.Willing) (h : sink.flush fs = (done, sink', fs')) : done = true := by
  unfold flush at h
  split at h
  next => exact absurd willing.2 (by simp)
  next => exact (Prod.mk.inj h).1.symm

/-! ## Giving up -/

/-- Giving a sink up leaves all that it took in its file. -/
theorem content?_release {fs : FileSystem} {place : Place} {path : String} {offset : Nat}
    {pending : Bytes} (ready : (Sink.file place path offset pending).Ready fs) :
    ((Sink.file place path offset pending).release fs).content? place =
      some ((Sink.file place path offset pending).taken fs) := by
  obtain ⟨content, held, rfl⟩ := ready.content
  simp [release, settle, taken, held, content?_writeAt_end pending held]

theorem release_sameBut (sink : Sink) (fs : FileSystem) :
    SameBut sink.place? fs (sink.release fs) := by
  cases sink with
  | file place path offset pending => exact sameBut_writeAt ..
  | buffer key contentType bytes => exact .refl ..
  | bounded room flushFails bytes => exact .refl ..

end Sink

end TableExport
