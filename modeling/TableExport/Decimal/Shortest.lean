import TableExport.Decimal.Binary
import TableExport.Decimal.Digits

/-!
# Shortest decimal text of a binary number

A finite number is written with the fewest digits that read back to it; among
those the nearest to the number, and the larger of two equally near ones. The
notation is positional throughout: no exponent, no point after a whole number.

The search goes through the decimal grids `10 ^ k` from coarse to fine. On each
grid only the two neighbours of the number can be the nearest point inside the
interval of reals that round to it, so they alone are tested.
-/
namespace TableExport.Decimal

/-- A positive number with its rounding interval, in units of `unit * 2 ^ e`:
the ends belong to the interval when `closed`. -/
structure Interval where
  low : Nat
  mid : Nat
  high : Nat
  e : Int
  closed : Bool

/-- The reals that round to `m * 2 ^ e`, in quarters of the last place. Below a
power of two the numbers lie twice as dense, except at the lowest exponent. -/
def Format.interval (f : Format) (m : Nat) (e : Int) : Interval where
  low := if m = 1 <<< f.significand ∧ f.lowest < e then 4 * m - 1 else 4 * m - 2
  mid := 4 * m
  high := 4 * m + 2
  e := e - 2
  closed := m % 2 = 0

/-- `2 ^ e * 10 ^ (-k)` as a fraction of natural numbers. -/
def scale (e k : Int) : Nat × Nat :=
  (tens (-k).toNat <<< e.toNat, tens k.toNat <<< (-e).toNat)

/-- Whether `c * 10 ^ k` lies in the interval, given the fraction `scale e k`. -/
def Interval.contains (i : Interval) (s : Nat × Nat) (c : Nat) : Bool :=
  if i.closed then i.low * s.1 ≤ c * s.2 && c * s.2 ≤ i.high * s.1
  else i.low * s.1 < c * s.2 && c * s.2 < i.high * s.1

/-- The better of the two neighbours on the grid `10 ^ k`, if one lies in the interval. -/
def Interval.onGrid (i : Interval) (k : Int) : Option Nat :=
  let s := scale i.e k
  let below := i.mid * s.1 / s.2
  if below = 0 then none
  else
    match i.contains s below, i.contains s (below + 1) with
    | true, true =>
      let down := i.mid * s.1 - below * s.2
      let up := (below + 1) * s.2 - i.mid * s.1
      some (if down < up then below else below + 1)
    | true, false => some below
    | false, true => some (below + 1)
    | false, false => none

/-- The first hit on the grids `10 ^ k`, `10 ^ (k - 1)`, and so on. -/
def Interval.search (i : Interval) : Nat → Int → Nat × Int
  | 0, k => (0, k)
  | fuel + 1, k =>
    match i.onGrid k with
    | some c => (c, k)
    | none => i.search fuel (k - 1)

/-- The shortest decimal `c * 10 ^ k` for a positive number. The search starts
above the largest number of the format and ends within the digits that always
suffice below its smallest one. -/
def Format.shortest (f : Format) (m : Nat) (e : Int) : Nat × Int :=
  let top := 1 <<< (f.exponent - 1)
  (f.interval m e).search (2 * top + f.significand + 20) (top : Nat)

/-- `c * 10 ^ k` in positional notation. -/
def positional (c : Nat) (k : Int) : List Char :=
  if 0 ≤ k then digits c ++ List.replicate k.toNat '0'
  else
    let places := (-k).toNat
    let all := padded (places + 1) c
    let whole := all.take (all.length - places)
    let fraction := withoutTrailingZeros (all.drop (all.length - places))
    if fraction.isEmpty then whole else whole ++ '.' :: fraction

def Format.render (f : Format) : Reading → String
  | .nan => "NaN"
  | .infinite negative => if negative then "-inf" else "inf"
  | .finite negative m e =>
    let body := if m = 0 then ['0'] else
      let short := f.shortest m e
      positional short.1 short.2
    String.ofList (if negative then '-' :: body else body)

def Binary64.render (x : Binary64) : String := Format.binary64.render x.read
def Binary32.render (x : Binary32) : String := Format.binary32.render x.read

end TableExport.Decimal
