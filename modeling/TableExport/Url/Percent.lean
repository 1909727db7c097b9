import TableExport.Bytes

/-!
# Percent-encoding

A character outside a component's own alphabet is written as the bytes of its UTF-8
form, each as a percent sign and two hexadecimal digits. Percent signs themselves are
never encoded, so encoded text passes through unchanged.
-/
namespace TableExport.Url

def hexDigit (n : Nat) : Char := if n < 10 then Char.ofNat (48 + n) else Char.ofNat (55 + n)

/-- The value of a hexadecimal digit in either case. -/
def hexValue? (c : Char) : Option Nat :=
  if '0' ≤ c ∧ c ≤ '9' then some (c.toNat - 48)
  else if 'A' ≤ c ∧ c ≤ 'F' then some (c.toNat - 55)
  else if 'a' ≤ c ∧ c ≤ 'f' then some (c.toNat - 87)
  else none

/-- A byte as percent sign and two digits. -/
def percentByte (byte : UInt8) : List Char :=
  ['%', hexDigit (byte.toNat / 16), hexDigit (byte.toNat % 16)]

def percentChar (c : Char) : List Char := (Bytes.ofText (String.singleton c)).flatMap percentByte

/-- Encodes the characters of a set and everything beyond ASCII. -/
def encode (set : Char → Bool) (cs : List Char) : List Char :=
  cs.flatMap fun c => if set c || '\x7f' < c then percentChar c else [c]

/-- Reads percent-encoded bytes. A percent sign without two digits stands for itself. -/
def decode : List Char → Bytes
  | [] => []
  | '%' :: a :: b :: rest =>
    match hexValue? a, hexValue? b with
    | some x, some y => UInt8.ofNat (x * 16 + y) :: decode rest
    | _, _ => 0x25 :: decode (a :: b :: rest)
  | c :: rest => Bytes.ofText (String.singleton c) ++ decode rest

/-! ## The characters that a component does not keep -/

def isControl (c : Char) : Bool := c < ' ' || c = '\x7f'

def fragmentSet (c : Char) : Bool := isControl c || [' ', '"', '<', '>', '`'].contains c

def querySet (c : Char) : Bool := isControl c || [' ', '"', '#', '<', '>'].contains c

def specialQuerySet (c : Char) : Bool := querySet c || c = '\''

def pathSet (c : Char) : Bool := fragmentSet c || ['#', '?', '\x7b', '\x7d'].contains c

def userinfoSet (c : Char) : Bool :=
  pathSet c || ['/', ':', ';', '=', '@', '[', '\\', ']', '^', '|'].contains c

end TableExport.Url
