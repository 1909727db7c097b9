/-!
# Decimal digits

Natural numbers and integers as decimal text, and back.
-/
namespace TableExport.Decimal

def digitChar (n : Nat) : Char := Char.ofNat (48 + n)

/-- The digits of a number, most significant first, without leading zeros. -/
def digits (n : Nat) : List Char :=
  if n < 10 then [digitChar n] else digits (n / 10) ++ [digitChar (n % 10)]
termination_by n
decreasing_by omega

def value (cs : List Char) : Nat := cs.foldl (fun n c => n * 10 + (c.toNat - 48)) 0

def tens (n : Nat) : Nat := Nat.pow 10 n

def natural (n : Nat) : String := String.ofList (digits n)

/-- Decimal text of an integer, with a minus sign below zero. -/
def integer (n : Int) : String :=
  if n < 0 then String.ofList ('-' :: digits n.natAbs) else natural n.natAbs

/-- The digits with zeros in front, at least `width` of them. -/
def padded (width n : Nat) : List Char :=
  List.replicate (width - (digits n).length) '0' ++ digits n

def withoutTrailingZeros (cs : List Char) : List Char :=
  (cs.reverse.dropWhile (· = '0')).reverse

/-- An optional sign and at least one digit, and nothing else. -/
def integer? (cs : List Char) : Option Int :=
  let read (ds : List Char) : Option Nat :=
    if ds.isEmpty || !ds.all Char.isDigit then none else some (value ds)
  match cs with
  | '-' :: ds => (read ds).map fun n => -(n : Int)
  | '+' :: ds => (read ds).map fun n => (n : Int)
  | ds => (read ds).map fun n => (n : Int)

end TableExport.Decimal
