/-!
# Bytes

Artifacts, stored values and binary wire values are plain lists of bytes.
Text enters them as UTF-8.
-/
namespace TableExport

abbrev Bytes := List UInt8

/-- The UTF-8 form of a text. -/
def Bytes.ofText (text : String) : Bytes := text.toUTF8.data.toList

/-- Reads bytes as an unsigned number, most significant byte first. -/
def Bytes.bigEndian (bytes : Bytes) : Nat :=
  bytes.foldl (fun value byte => value * 256 + byte.toNat) 0

end TableExport
