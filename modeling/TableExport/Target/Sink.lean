import TableExport.FileSystem.Basic
import TableExport.Target.Mode

/-!
# Sinks

A sink takes the bytes of one artifact. A file sink collects bytes and passes them
to its file in larger pieces; a buffer sink keeps them for an upload; a bounded
sink takes a limited number of bytes and stands for any destination that fails.
-/
namespace TableExport

/-- Where the bytes of one artifact go. -/
inductive Sink
  -- An open file: its place, its name as it was opened, the position of the next
  -- write, and the bytes not yet written.
  | file (place : Place) (path : String) (offset : Nat) (pending : Bytes)
  -- An object that is uploaded when it is complete.
  | buffer (key : String) (contentType : ContentType) (bytes : Bytes)
  -- A destination that takes `room` more bytes, or any number, and may fail to flush.
  | bounded (room : Option Nat) (flushFails : Bool) (taken : Bytes)
  deriving DecidableEq, Repr

namespace Sink

/-- How many bytes a file sink collects. -/
def fileBuffer : Nat := 8192

/-- A destination that never fails. -/
def endless : Sink := .bounded none false []

/-- Writes the pending bytes of a file sink. -/
def settle (sink : Sink) (fs : FileSystem) : Sink × FileSystem :=
  match sink with
  | .file place path offset pending =>
    (.file place path (offset + pending.length) [], fs.writeAt place offset pending)
  | other => (other, fs)

/-- Offers bytes once. Gives the number taken, or `none` for a failure. A file sink
collects what fits with room to spare; otherwise it first writes what is pending,
unless the bytes just fit, and passes on large pieces at once. -/
def offer (sink : Sink) (fs : FileSystem) (data : Bytes) : Option Nat × Sink × FileSystem :=
  match sink with
  | .file place path offset pending =>
    if pending.length + data.length < fileBuffer then
      (some data.length, .file place path offset (pending ++ data), fs)
    else
      let settled :=
        if fileBuffer < pending.length + data.length then
          (offset + pending.length, [], fs.writeAt place offset pending)
        else (offset, pending, fs)
      if fileBuffer ≤ data.length then
        (some data.length, .file place path (settled.1 + data.length) settled.2.1,
          settled.2.2.writeAt place settled.1 data)
      else (some data.length, .file place path settled.1 (settled.2.1 ++ data), settled.2.2)
  | .buffer key contentType bytes =>
    (some data.length, .buffer key contentType (bytes ++ data), fs)
  | .bounded none flushFails taken =>
    (some data.length, .bounded none flushFails (taken ++ data), fs)
  | .bounded (some room) flushFails taken =>
    if room = 0 then (none, sink, fs)
    else
      let count := min room data.length
      (some count, .bounded (some (room - count)) flushFails (taken ++ data.take count), fs)

/-- Offers bytes until all are taken; says whether they were. -/
def writeAll (sink : Sink) (fs : FileSystem) (data : Bytes) : Bool × Sink × FileSystem :=
  if data = [] then (true, sink, fs)
  else
    match sink.offer fs data with
    | (none, sink, fs) => (false, sink, fs)
    | (some 0, sink, fs) => (false, sink, fs)
    | (some (n + 1), sink, fs) => sink.writeAll fs (data.drop (n + 1))
termination_by data.length
decreasing_by
  have : data.length ≠ 0 := by simpa using ‹¬data = []›
  simp only [List.length_drop]
  omega

/-- Passes everything on; says whether that succeeded. -/
def flush (sink : Sink) (fs : FileSystem) : Bool × Sink × FileSystem :=
  match sink with
  | .bounded _ true _ => (false, sink, fs)
  | _ => (true, sink.settle fs)

/-- Gives the sink up. Pending bytes of a file are still written; an object is not
uploaded. -/
def release (sink : Sink) (fs : FileSystem) : FileSystem := (sink.settle fs).2

end Sink

end TableExport
