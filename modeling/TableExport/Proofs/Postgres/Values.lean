import Mathlib
import TableExport.Proofs.Calendar
import TableExport.Proofs.Postgres.Binary
import TableExport.Proofs.Text.Utf8

/-!
# Values by type

The values that the types with a reading of their own have, with the form in which a server
sends them and the text that stands for them. A value of any other type has the text that the
server prints for it. Reading as text gives the text of each value.
-/
namespace TableExport.Postgres

open Calendar (Moment Clock millennium microsPerDay)
open Decimal (Binary32 Binary64)

/-! ## Identifiers -/

/-- A universally unique identifier by its fields. -/
structure Uuid where
  timeLow : BitVec 32
  timeMid : BitVec 16
  timeHigh : BitVec 16
  clock : BitVec 16
  node : BitVec 48
  deriving DecidableEq, Repr

namespace Uuid

def bytes (u : Uuid) : Bytes :=
  unsigned 4 u.timeLow.toNat ++ (unsigned 2 u.timeMid.toNat ++ (unsigned 2 u.timeHigh.toNat ++
    (unsigned 2 u.clock.toNat ++ unsigned 6 u.node.toNat)))

/-- The fields in sixteen digits with hyphens between them. -/
def hyphenated (u : Uuid) : List Char :=
  let field (width n : Nat) := (Nat.toDigits 16 n).leftpad width '0'
  field 8 u.timeLow.toNat ++ '-' :: field 4 u.timeMid.toNat ++ '-' :: field 4 u.timeHigh.toNat ++
    '-' :: field 4 u.clock.toNat ++ '-' :: field 12 u.node.toNat

theorem uuidText_bytes (u : Uuid) : uuidText u.bytes = u.hyphenated := by
  have timeLow := @hexBytes_unsigned 3 _ u.timeLow.isLt
  have timeMid := @hexBytes_unsigned 1 _ u.timeMid.isLt
  have timeHigh := @hexBytes_unsigned 1 _ u.timeHigh.isLt
  have clock := @hexBytes_unsigned 1 _ u.clock.isLt
  have node := @hexBytes_unsigned 5 _ u.node.isLt
  simp [uuidText, bytes, hyphenated, List.drop_append, List.drop_of_length_le,
    List.take_of_length_le, timeLow, timeMid, timeHigh, clock, node]

theorem uuid_bytes (u : Uuid) : uuid u.bytes = .ok (String.ofList u.hyphenated) := by
  have length : u.bytes.length = 16 := by simp [bytes]
  rw [uuid, if_pos length, uuidText_bytes]

end Uuid

/-! ## Values -/

/-- A value that is not NULL. Values of the types without a reading of their own have some
binary form and the text that the server prints. -/
inductive Datum
  | bool (b : Bool)
  | int2 (n : Int16)
  | int4 (n : Int32)
  | int8 (n : Int64)
  | float4 (x : Binary32)
  | float8 (x : Binary64)
  | uuid (u : Uuid)
  | moment (m : Moment)
  | date (d : Calendar.Date) (valid : d.Valid)
  | time (c : Clock)
  -- 24:00:00, which a time can be as well
  | endOfDay
  | bytea (content : Bytes)
  | text (s : String)
  | other (binary : Bytes) (printed : String)

namespace Datum

/-- The types that have values of this form. -/
def typeNames : Datum → List String
  | .bool _ => ["BOOL"]
  | .int2 _ => ["INT2"]
  | .int4 _ => ["INT4"]
  | .int8 _ => ["INT8"]
  | .float4 _ => ["FLOAT4"]
  | .float8 _ => ["FLOAT8"]
  | .uuid _ => ["UUID"]
  | .moment _ => ["TIMESTAMP", "TIMESTAMPTZ"]
  | .date _ _ => ["DATE"]
  | .time _ | .endOfDay => ["TIME"]
  | .bytea _ => ["BYTEA"]
  | .text _ => ["TEXT", "VARCHAR", "CHAR", "NAME"]
  | .other _ _ => []

/-- Whether a value can stand in a column of a type. The types that no form is for have the
values of the last form. -/
def HasType (typeName : String) : Datum → Prop
  | .other _ _ => ∀ d : Datum, typeName ∉ d.typeNames
  | d => typeName ∈ d.typeNames

/-- The bytes that a server sends for the value. -/
def bytes : Datum → Bytes
  | .bool b => [if b then 1 else 0]
  | .int2 n => twosComplement 2 n.toInt
  | .int4 n => twosComplement 4 n.toInt
  | .int8 n => twosComplement 8 n.toInt
  | .float4 x => unsigned 4 x.bits.toNat
  | .float8 x => unsigned 8 x.bits.toNat
  | .uuid u => u.bytes
  | .moment m => twosComplement 8 m.micros
  | .date d _ => twosComplement 4 (d.number - millennium)
  | .time c => twosComplement 8 c.micros
  | .endOfDay => twosComplement 8 microsPerDay
  | .bytea content => content
  | .text s => Bytes.ofText s
  | .other binary _ => binary

/-- The text that stands for the value. -/
def shown : Datum → String
  | .bool b => if b then "true" else "false"
  | .int2 n => toString n.toInt
  | .int4 n => toString n.toInt
  | .int8 n => toString n.toInt
  | .float4 x => x.render
  | .float8 x => x.render
  | .uuid u => String.ofList u.hyphenated
  | .moment m => String.ofList m.iso
  | .date d _ => String.ofList d.iso
  | .time c => String.ofList (c.iso ++ c.fraction)
  | .endOfDay => "00:00:00"
  | .bytea content => Utf8.decodeLossy content
  | .text s => s
  | .other _ printed => printed

end Datum

/-! ## Reading -/

theorem boolean_bytes (b : Bool) : boolean (Datum.bool b).bytes = .ok b := by
  cases b <;> rfl

theorem integer_int2 (n : Int16) : integer 16 (Datum.int2 n).bytes = .ok n.toInt :=
  integer_twosComplement (by decide) (by decide) n.le_toInt n.toInt_lt

theorem integer_int4 (n : Int32) : integer 32 (Datum.int4 n).bytes = .ok n.toInt :=
  integer_twosComplement (by decide) (by decide) n.le_toInt n.toInt_lt

theorem integer_int8 (n : Int64) : integer 64 (Datum.int8 n).bytes = .ok n.toInt :=
  integer_twosComplement (by decide) (by decide) n.le_toInt n.toInt_lt

theorem float32_bytes (x : Binary32) : float32 (Datum.float4 x).bytes = .ok x := by
  have bits : Bytes.bigEndian (unsigned 4 x.bits.toNat) = x.bits.toNat :=
    bigEndian_unsigned x.bits.toNat_lt
  simp [float32, Datum.bytes, List.take_of_length_le, bits]

theorem float64_bytes (x : Binary64) : float64 (Datum.float8 x).bytes = .ok x := by
  have bits : Bytes.bigEndian (unsigned 8 x.bits.toNat) = x.bits.toNat :=
    bigEndian_unsigned x.bits.toNat_lt
  simp [float64, Datum.bytes, List.take_of_length_le, bits]

theorem timestamp_bytes (m : Moment) :
    timestamp (Datum.moment m).bytes = .ok (String.ofList m.iso) := by
  have micros : integer 64 (Datum.moment m).bytes = .ok m.micros :=
    integer_twosComplement (by decide) (by decide) m.micros_bounds.1 m.micros_bounds.2
  simp only [timestamp, micros, bind, Except.bind, m.ofMicros?_micros, orCrash, m.text_eq, pure,
    Except.pure]

theorem date_bytes (d : Calendar.Date) (valid : d.Valid) :
    date (Datum.date d valid).bytes = .ok (String.ofList d.iso) := by
  obtain ⟨low, high⟩ := Calendar.Date.number_bounds valid
  have days : integer 32 (Datum.date d valid).bytes = .ok (d.number - millennium) := by
    refine integer_twosComplement (by decide) (by decide) ?_ ?_ <;>
      simp only [millennium] <;> omega
  simp only [date, days, bind, Except.bind, add_sub_cancel, Calendar.Date.ofDay?_number valid,
    orCrash, d.text_eq, pure, Except.pure]

theorem time_twosComplement {micros : Nat} (day : micros ≤ microsPerDay) :
    time (twosComplement 8 micros) =
      .ok (String.ofList (Calendar.timeText (micros % microsPerDay))) := by
  have read : integer 64 (twosComplement 8 micros) = .ok (micros : Int) := by
    refine integer_twosComplement (by decide) (by decide) ?_ ?_ <;>
      simp only [microsPerDay] at day <;> omega
  have rest : ((micros : Int).fmod microsPerDay).toNat = micros % microsPerDay := by
    rw [Int.fmod_eq_emod_of_nonneg _ (Int.natCast_nonneg _), ← Int.natCast_emod, Int.toNat_natCast]
  simp only [time, read, bind, Except.bind, rest, pure, Except.pure]

theorem time_bytes (c : Clock) :
    time (Datum.time c).bytes = .ok (String.ofList (c.iso ++ c.fraction)) := by
  have below := c.micros_lt
  rw [Datum.bytes, time_twosComplement below.le, Nat.mod_eq_of_lt below, c.timeText_eq]

/-- The end of a day is shown as the start of the next one. -/
theorem time_endOfDay : time Datum.endOfDay.bytes = .ok "00:00:00" := by
  have midnight : Calendar.timeText 0 = "00:00:00".toList :=
    Clock.midnight.timeText_eq.trans (by decide)
  rw [Datum.bytes, time_twosComplement le_rfl, Nat.mod_self, midnight, String.ofList_toList]

theorem plainText_bytes (s : String) : plainText (Datum.text s).bytes = .ok s := by
  rw [plainText, Datum.bytes, Utf8.decode?_ofText]

/-- A value of a type with a reading of its own is read as its text. -/
theorem text_bytes {d : Datum} {typeName : String} (has : typeName ∈ d.typeNames) :
    text typeName d.bytes = .ok d.shown := by
  cases d with
  | bool b =>
    obtain rfl := List.mem_singleton.mp has
    simp only [text, boolean_bytes, Except.map, Datum.shown]
  | int2 n =>
    obtain rfl := List.mem_singleton.mp has
    simp only [text, integer_int2, Except.map, Decimal.integer_eq, Datum.shown]
  | int4 n =>
    obtain rfl := List.mem_singleton.mp has
    simp only [text, integer_int4, Except.map, Decimal.integer_eq, Datum.shown]
  | int8 n =>
    obtain rfl := List.mem_singleton.mp has
    simp only [text, integer_int8, Except.map, Decimal.integer_eq, Datum.shown]
  | float4 x =>
    obtain rfl := List.mem_singleton.mp has
    simp only [text, float32_bytes, Except.map, Datum.shown]
  | float8 x =>
    obtain rfl := List.mem_singleton.mp has
    simp only [text, float64_bytes, Except.map, Datum.shown]
  | uuid u =>
    obtain rfl := List.mem_singleton.mp has
    exact u.uuid_bytes
  | moment m =>
    simp only [Datum.typeNames, List.mem_cons, List.not_mem_nil, or_false] at has
    obtain rfl | rfl := has
    all_goals exact timestamp_bytes m
  | date d valid =>
    obtain rfl := List.mem_singleton.mp has
    exact date_bytes d valid
  | time c =>
    obtain rfl := List.mem_singleton.mp has
    exact time_bytes c
  | endOfDay =>
    obtain rfl := List.mem_singleton.mp has
    exact time_endOfDay
  | bytea content =>
    obtain rfl := List.mem_singleton.mp has
    rfl
  | text s =>
    simp only [Datum.typeNames, List.mem_cons, List.not_mem_nil, or_false] at has
    obtain rfl | rfl | rfl | rfl := has
    all_goals exact plainText_bytes s
  | other binary printed => exact absurd has List.not_mem_nil

end TableExport.Postgres
