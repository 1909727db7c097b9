import TableExport.Bytes

/-!
# CSV records

Fields are separated by commas and a record ends with a line feed. A field that
holds a comma, a quote or a line character stands in quotes, with each quote
inside written twice. A record without any byte of its own, that is one of no
field or of one empty field, is written as an empty quoted field.

A record is given as units. A unit enters a buffer whole or not at all; each
byte of plain text is a unit of its own.
-/
namespace TableExport.Csv

def comma : UInt8 := 0x2c
def quote : UInt8 := 0x22
def lineFeed : UInt8 := 0x0a
def carriageReturn : UInt8 := 0x0d

/-- Whether a byte forces its field into quotes. -/
def isSpecial (byte : UInt8) : Bool :=
  byte = comma || byte = quote || byte = lineFeed || byte = carriageReturn

/-- The units of a byte inside a quoted field. -/
def quotedUnit (byte : UInt8) : Bytes := if byte = quote then [quote, quote] else [byte]

def fieldUnits (field : Bytes) : List Bytes :=
  if field.any isSpecial then [quote] :: (field.map quotedUnit ++ [[quote]])
  else field.map fun byte => [byte]

/-- The units of the fields, with a comma before each but the first. -/
def joined : List Bytes → List Bytes
  | [] => []
  | [field] => fieldUnits field
  | field :: rest => fieldUnits field ++ [comma] :: joined rest

def recordUnits (fields : List Bytes) : List Bytes :=
  let body := joined fields
  (if body.isEmpty then [[quote, quote]] else body) ++ [[lineFeed]]

def encodeRecord (fields : List Bytes) : Bytes := (recordUnits fields).flatten

def encode (records : List (List Bytes)) : Bytes := (records.map encodeRecord).flatten

end TableExport.Csv
