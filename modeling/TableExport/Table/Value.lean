import TableExport.Decimal.Shortest
import TableExport.Table.Column

/-!
# Values

A slot holds a value of a known kind or NULL. Exported values have no NULL: it
becomes the zero value of its kind.
-/
namespace TableExport

open Decimal (Binary64)

inductive Value
  | text (s : String)
  | bool (b : Bool)
  | int64 (n : Int64)
  | float64 (x : Binary64)
  | int32 (n : Int32)
  deriving DecidableEq, Repr

/-- A value of a known kind, or NULL. -/
inductive Slot
  | text (s : Option String)
  | bool (b : Option Bool)
  | int64 (n : Option Int64)
  | float64 (x : Option Binary64)
  | int32 (n : Option Int32)
  deriving DecidableEq, Repr

def Value.render : Value → String
  | .text s => s
  | .bool b => if b then "true" else "false"
  | .int64 n => Decimal.integer n.toInt
  | .float64 x => x.render
  | .int32 n => Decimal.integer n.toInt

namespace Slot

def null : ScanKind → Slot
  | .text => .text none
  | .bool => .bool none
  | .int64 => .int64 none
  | .float64 => .float64 none
  | .int32 => .int32 none

def kind : Slot → ScanKind
  | .text _ => .text
  | .bool _ => .bool
  | .int64 _ => .int64
  | .float64 _ => .float64
  | .int32 _ => .int32

/-- The value held; for NULL the empty text, false or zero. -/
def value : Slot → Value
  | .text s => .text (s.getD "")
  | .bool b => .bool (b.getD false)
  | .int64 n => .int64 (n.getD 0)
  | .float64 x => .float64 (x.getD .zero)
  | .int32 n => .int32 (n.getD 0)

theorem kind_null (kind : ScanKind) : (null kind).kind = kind := by cases kind <;> rfl

end Slot

end TableExport
