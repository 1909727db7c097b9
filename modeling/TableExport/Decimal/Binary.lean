/-!
# Binary floating point

Numbers of the binary64 and binary32 formats are kept as their bits, so that a
NaN keeps its payload and both zeros stay apart. A finite number is read as a
whole multiple of a power of two. Powers of two are written as shifts: `1 <<< n` is
`2 ^ n`, `a <<< n` is `a * 2 ^ n` and `a >>> n` is `a / 2 ^ n`.
-/
namespace TableExport.Decimal

/-- A binary interchange format: widths of the stored significand and exponent. -/
structure Format where
  significand : Nat
  exponent : Nat

def Format.binary64 : Format := ⟨52, 11⟩
def Format.binary32 : Format := ⟨23, 8⟩

/-- The all-ones exponent, which marks infinities and NaNs. -/
def Format.special (f : Format) : Nat := 1 <<< f.exponent - 1

/-- The power of two of the last place of the smallest numbers. -/
def Format.lowest (f : Format) : Int :=
  2 - ((1 <<< (f.exponent - 1) : Nat) : Int) - f.significand

/-- What the bits of a number say. A finite one is `m * 2 ^ e`, negated if so marked. -/
inductive Reading
  | nan
  | infinite (negative : Bool)
  | finite (negative : Bool) (m : Nat) (e : Int)
  deriving DecidableEq, Repr

/-- Takes sign, exponent and significand apart. Numbers of the lowest exponent
have no hidden leading bit. -/
def Format.read (f : Format) (bits : Nat) : Reading :=
  let fraction := bits % (1 <<< f.significand)
  let exponent := bits >>> f.significand % (1 <<< f.exponent)
  let negative := bits >>> (f.significand + f.exponent) % 2 == 1
  if exponent = f.special then
    if fraction = 0 then .infinite negative else .nan
  else if exponent = 0 then .finite negative fraction f.lowest
  else .finite negative (1 <<< f.significand + fraction) (f.lowest + (exponent - 1 : Nat))

structure Binary64 where
  bits : UInt64
  deriving DecidableEq, Repr

structure Binary32 where
  bits : UInt32
  deriving DecidableEq, Repr

def Binary64.read (x : Binary64) : Reading := Format.binary64.read x.bits.toNat
def Binary32.read (x : Binary32) : Reading := Format.binary32.read x.bits.toNat

def Binary64.zero : Binary64 := ⟨0⟩

/-- How far a number must be shifted right to have at most 53 binary digits. -/
def excessBits (n : Nat) : Nat := n.log2 + 1 - 53

/-- The nearest multiple of `2 ^ shift`, as a factor; a tie goes to the even factor. -/
def roundShift (n shift : Nat) : Nat :=
  let q := n >>> shift
  let unit := 1 <<< shift
  let r := n % unit
  if 2 * r > unit || (2 * r == unit && q % 2 == 1) then q + 1 else q

/-- The binary64 number nearest to an integer; a tie goes to the even significand.
Integers of the 64-bit range never reach the infinities. -/
def Binary64.ofInt (n : Int) : Binary64 :=
  if n = 0 then .zero
  else
    let shift := excessBits n.natAbs
    let m := roundShift n.natAbs shift
    let lead := m.log2
    let fraction := m <<< (52 - lead) >>> (lead - 52) - 1 <<< 52
    let sign := if n < 0 then 1 <<< 63 else 0
    ⟨UInt64.ofNat (sign + (1023 + lead + shift) <<< 52 + fraction)⟩

/-- The same number in the wider format. A NaN keeps its payload and becomes quiet. -/
def Binary32.widen (x : Binary32) : Binary64 :=
  let bits := x.bits.toNat
  let sign := bits >>> 31 <<< 63
  let fraction := bits % (1 <<< 23)
  match x.read with
  | .nan => ⟨UInt64.ofNat (sign + 2047 <<< 52 + (fraction <<< 29 ||| 1 <<< 51))⟩
  | .infinite _ => ⟨UInt64.ofNat (sign + 2047 <<< 52)⟩
  | .finite _ 0 _ => ⟨UInt64.ofNat sign⟩
  | .finite _ m e =>
    let lead := m.log2
    ⟨UInt64.ofNat (sign + (1023 + e + lead).toNat <<< 52 + (m <<< (52 - lead) - 1 <<< 52))⟩

/-- The integer that a number equals, if it equals one. -/
def Binary64.toInt? (x : Binary64) : Option Int :=
  match x.read with
  | .finite negative m e =>
    let magnitude : Option Nat :=
      if 0 ≤ e then some (m <<< e.toNat)
      else if m % (1 <<< (-e).toNat) = 0 then some (m >>> (-e).toNat) else none
    magnitude.map fun n => if negative then -(n : Int) else n
  | _ => none

end TableExport.Decimal
