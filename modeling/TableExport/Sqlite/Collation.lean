import TableExport.Sqlite.Value
import TableExport.Text.LetterCase

/-!
# Collations

A column compares its texts by a collation. Each text has a canonical form, and
texts are compared by the bytes of these forms: texts with one form are equal, however
they are stored. Values of other storage classes have no collation.
-/
namespace TableExport.Sqlite

/-- How the texts of a column are compared: byte by byte, without the case of ASCII
letters, or without the blanks at their ends. -/
inductive Collation
  | binary
  | nocase
  | rtrim
  deriving DecidableEq, Repr

/-- An ASCII letter in lower case, and any other byte as it is. -/
def lowerByte (byte : UInt8) : UInt8 :=
  if 0x41 ≤ byte ∧ byte ≤ 0x5A then byte + 0x20 else byte

/-- A text in lower case. What stands behind a zero byte counts by its length only. -/
def lowerBytes : Bytes → Bytes
  | [] => []
  | byte :: rest =>
    if byte = 0 then List.replicate (rest.length + 1) 0 else lowerByte byte :: lowerBytes rest

namespace Collation

def canonical : Collation → Bytes → Bytes
  | .binary, bytes => bytes
  | .nocase, bytes => lowerBytes bytes
  -- Only blanks are left out, no other white space.
  | .rtrim, bytes => (bytes.reverse.dropWhile (· = 0x20)).reverse

/-- The collations are known by their names in any letter case. -/
def ofName? (name : String) : Option Collation :=
  if Text.sameLetters name "binary" then some .binary
  else if Text.sameLetters name "nocase" then some .nocase
  else if Text.sameLetters name "rtrim" then some .rtrim
  else none

end Collation

/-- The order of text by its bytes. -/
def bytesBefore : Bytes → Bytes → Bool
  | [], _ => true
  | _ :: _, [] => false
  | a :: as, b :: bs => if a = b then bytesBefore as bs else a < b

/-- Texts come in falling order, before all that is no text. -/
def Collation.falling (collation : Collation) : Stored → Stored → Bool
  | .text a, .text b => bytesBefore (collation.canonical b) (collation.canonical a)
  | .text _, _ => true
  | _, .text _ => false
  | _, _ => true

end TableExport.Sqlite
