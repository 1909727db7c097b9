import TableExport.Error
import TableExport.Table.Row
import TableExport.Text.Utf8

/-!
# Stored SQLite values

A value has one of five storage classes, whatever its column was declared as. How
it is read depends on its class and on the kind asked for.
-/
namespace TableExport.Sqlite

open Decimal (Binary64)

/-- A value as it is stored. Text need not be well-formed. -/
inductive Stored
  | null
  | integer (n : Int64)
  | real (x : Binary64)
  | text (bytes : Bytes)
  | blob (bytes : Bytes)
  deriving DecidableEq, Repr

namespace Stored

/-- The text of a value that is not NULL: digits of a number, text as it is, and a
blob read as text where it can be. -/
def asText : Stored → Except Cause String
  | .null => .ok ""
  | .integer n => .ok (Decimal.integer n.toInt)
  | .real x => .ok x.render
  | .text bytes =>
    match Utf8.decode? bytes with
    | some s => .ok s
    | none => .error .unreadable
  | .blob bytes => .ok (Utf8.decodeLossy bytes)

/-- Reads a value as a kind. NULL is NULL of every kind; truth values and integers
come from integers only. -/
def decode (kind : ScanKind) : Stored → Except Cause Slot
  | .null => .ok (.null kind)
  | stored =>
    match kind, stored with
    | .text, stored => stored.asText.map fun s => .text (some s)
    | .bool, .integer n => .ok (.bool (some (n != 0)))
    | .int64, .integer n => .ok (.int64 (some n))
    | .float64, .integer n => .ok (.float64 (some (.ofInt n.toInt)))
    | .float64, .real x => .ok (.float64 (some x))
    | .int32, .integer n =>
      if Int32.minValue.toInt ≤ n.toInt ∧ n.toInt ≤ Int32.maxValue.toInt then
        .ok (.int32 (some (Int32.ofInt n.toInt)))
      else .error .unreadable
    | _, _ => .error .unreadable

def rowSource (values : List Stored) : RowSource where
  width := values.length
  decode index kind :=
    match values[index]? with
    | none => .error (.raised .outOfBounds)
    | some stored =>
      match stored.decode kind with
      | .ok slot => .ok slot
      | .error cause => .error (.raised cause)

end Stored

/-- The value that is stored for a real number: there is no stored NaN. -/
def Stored.ofReal (x : Binary64) : Stored :=
  match x.read with
  | .nan => .null
  | _ => .real x

end TableExport.Sqlite
