import TableExport.Calendar
import TableExport.Decimal.Shortest
import TableExport.Error
import TableExport.Table.Row
import TableExport.Text.Utf8

/-!
# PostgreSQL values

A value arrives as the name of its type and its binary form. Reading it as text
goes by type name; types without a reading of their own are cast to text by the
server and arrive as `TEXT`.

Timestamps and dates outside the calendar end the process instead of being
reported: `Fault.crash`.
-/
namespace TableExport.Postgres

open Decimal (Binary32 Binary64)

/-- A value on the wire; `none` is NULL. -/
structure Cell where
  typeName : String
  bytes : Option Bytes
  deriving DecidableEq, Repr

abbrev Decoded (α : Type) := Except (Fault Cause) α

def unreadable {α : Type} : Decoded α := .error (.raised .unreadable)

/-- A big-endian integer in two's complement. -/
def signed (bytes : Bytes) : Int :=
  let n := bytes.bigEndian
  let bound := 1 <<< (8 * bytes.length)
  if bound ≤ 2 * n then (n : Int) - bound else n

/-- An integer of one to eight bytes that fits into `bits` bits. -/
def integer (bits : Nat) (bytes : Bytes) : Decoded Int :=
  if bytes.length = 0 ∨ 8 < bytes.length then unreadable
  else
    let n := signed bytes
    let bound : Nat := 1 <<< (bits - 1)
    if -bound ≤ n ∧ n < bound then .ok n else unreadable

/-- A truth value is its first byte. -/
def boolean : Bytes → Decoded Bool
  | [] => .error .crash
  | byte :: _ => .ok (byte != 0)

def float32 (bytes : Bytes) : Decoded Binary32 :=
  if bytes.length < 4 then .error .crash
  else .ok ⟨UInt32.ofNat (Bytes.bigEndian (bytes.take 4))⟩

def float64 (bytes : Bytes) : Decoded Binary64 :=
  if bytes.length < 8 then .error .crash
  else .ok ⟨UInt64.ofNat (Bytes.bigEndian (bytes.take 8))⟩

def hexByte (byte : UInt8) : List Char :=
  [Nat.digitChar (byte.toNat / 16), Nat.digitChar (byte.toNat % 16)]

/-- Sixteen bytes in groups of four, two, two, two and six. -/
def uuidText (bytes : Bytes) : List Char :=
  let group (start count : Nat) := ((bytes.drop start).take count).flatMap hexByte
  group 0 4 ++ '-' :: group 4 2 ++ '-' :: group 6 2 ++ '-' :: group 8 2 ++ '-' :: group 10 6

def uuid (bytes : Bytes) : Decoded String :=
  if bytes.length = 16 then .ok (String.ofList (uuidText bytes)) else unreadable

/-- A result that needs a date: there is none outside the calendar. -/
def orCrash {α : Type} : Option α → Decoded α
  | some a => .ok a
  | none => .error .crash

/-- Microseconds since the start of 2000. -/
def timestamp (bytes : Bytes) : Decoded String := do
  let micros ← integer 64 bytes
  let instant ← orCrash (Calendar.Instant.ofMicros? micros)
  pure (String.ofList instant.text)

/-- Days since the start of 2000. -/
def date (bytes : Bytes) : Decoded String := do
  let days ← integer 32 bytes
  let date ← orCrash (Calendar.Date.ofDay? (Calendar.millennium + days))
  pure (String.ofList date.text)

/-- Microseconds since midnight. The last moment of a day is its first. -/
def time (bytes : Bytes) : Decoded String := do
  let micros ← integer 64 bytes
  pure (String.ofList (Calendar.timeText (micros.fmod Calendar.microsPerDay).toNat))

/-- Well-formed text only. -/
def plainText (bytes : Bytes) : Decoded String :=
  match Utf8.decode? bytes with
  | some text => .ok text
  | none => unreadable

def textTypes : List String := ["TEXT", "NAME", "CHAR", "VARCHAR", "UNKNOWN", "citext"]

def text (typeName : String) (bytes : Bytes) : Decoded String :=
  match typeName with
  | "BOOL" => (boolean bytes).map fun b => if b then "true" else "false"
  | "INT2" => (integer 16 bytes).map Decimal.integer
  | "INT4" => (integer 32 bytes).map Decimal.integer
  | "INT8" => (integer 64 bytes).map Decimal.integer
  | "FLOAT4" => (float32 bytes).map Binary32.render
  | "FLOAT8" => (float64 bytes).map Binary64.render
  | "UUID" => uuid bytes
  | "TIMESTAMP" | "TIMESTAMPTZ" => timestamp bytes
  | "DATE" => date bytes
  | "TIME" => time bytes
  | "BYTEA" => .ok (Utf8.decodeLossy bytes)
  | _ => if textTypes.contains typeName then plainText bytes else unreadable

/-- Reads a value of a type as a kind. Narrower integers and floats are widened. -/
def present (kind : ScanKind) (typeName : String) (bytes : Bytes) : Decoded Slot :=
  match kind with
  | .text => (text typeName bytes).map fun s => .text (some s)
  | .bool =>
    if typeName = "BOOL" then (boolean bytes).map fun b => .bool (some b) else unreadable
  | .int64 =>
    let bits := if typeName = "INT2" then 16 else if typeName = "INT4" then 32 else 64
    if ["INT2", "INT4", "INT8"].contains typeName then
      (integer bits bytes).map fun n => .int64 (some (Int64.ofInt n))
    else unreadable
  | .float64 =>
    if typeName = "FLOAT4" then (float32 bytes).map fun x => .float64 (some x.widen)
    else if typeName = "FLOAT8" then (float64 bytes).map fun x => .float64 (some x)
    else unreadable
  | .int32 =>
    let bits := if typeName = "INT2" then 16 else 32
    if ["INT2", "INT4"].contains typeName then
      (integer bits bytes).map fun n => .int32 (some (Int32.ofInt n))
    else unreadable

/-- Reads a value as a kind; NULL is NULL of every kind. -/
def Cell.decode (kind : ScanKind) (cell : Cell) : Decoded Slot :=
  match cell.bytes with
  | none => .ok (.null kind)
  | some bytes => present kind cell.typeName bytes

def rowSource (cells : List Cell) : RowSource where
  width := cells.length
  decode index kind :=
    match cells[index]? with
    | none => .error (.raised .outOfBounds)
    | some cell => cell.decode kind

end TableExport.Postgres
