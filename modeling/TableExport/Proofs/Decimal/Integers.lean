import Mathlib
import TableExport.Decimal.Binary

/-!
# Whole numbers of the binary64 format

Zero is written in two ways, and every other whole number in at most one. Its leading bit is not
stored, so the number lies between two powers of two after it is scaled, which settles the exponent;
the significand and the sign are then settled as well.
-/
namespace TableExport.Decimal

/-- A significand of full width and a power of two are determined by their product. -/
theorem scaled_unique {m m' p p' : Nat} (low : 2 ^ 52 ≤ m) (high : m < 2 ^ 53) (low' : 2 ^ 52 ≤ m')
    (high' : m' < 2 ^ 53) (same : m * 2 ^ p = m' * 2 ^ p') : m = m' ∧ p = p' := by
  -- with a smaller power even the largest significand falls short of the smallest
  have smaller {m m' p p' : Nat} (high : m < 2 ^ 53) (low' : 2 ^ 52 ≤ m')
      (same : m * 2 ^ p = m' * 2 ^ p') : p' ≤ p := by
    by_contra! before
    have larger : m * 2 ^ p < m' * 2 ^ p' := calc
      m * 2 ^ p < 2 ^ 53 * 2 ^ p := by gcongr
      _ = 2 ^ 52 * 2 ^ (p + 1) := by ring
      _ ≤ m' * 2 ^ p' := by gcongr <;> omega
    exact larger.ne same
  obtain rfl := (smaller high' low same.symm).antisymm (smaller high low' same)
  exact ⟨Nat.eq_of_mul_eq_mul_right (by positivity) same, rfl⟩

namespace Binary64

def negative (x : Binary64) : Bool := x.bits.toNat / 2 ^ 63 % 2 == 1

def exponent (x : Binary64) : Nat := x.bits.toNat / 2 ^ 52 % 2 ^ 11

def fraction (x : Binary64) : Nat := x.bits.toNat % 2 ^ 52

theorem fraction_lt (x : Binary64) : x.fraction < 2 ^ 52 := Nat.mod_lt _ (by positivity)

theorem bits_eq (x : Binary64) :
    x.bits.toNat = (if x.negative then 2 ^ 63 else 0) + x.exponent * 2 ^ 52 + x.fraction := by
  have bound : x.bits.toNat < 2 ^ 64 := x.bits.toNat_lt
  simp only [negative, exponent, fraction, beq_iff_eq]
  split <;> omega

theorem read_eq (x : Binary64) : x.read =
    if x.exponent = 2047 then
      if x.fraction = 0 then .infinite x.negative else .nan
    else if x.exponent = 0 then .finite x.negative x.fraction (-1074)
    else .finite x.negative (2 ^ 52 + x.fraction) (-1074 + (x.exponent - 1 : Nat)) := by
  have lowest : Format.binary64.lowest = -1074 := by decide
  simp only [Binary64.read, Format.read, lowest]
  simp only [Format.binary64, Format.special, Nat.one_shiftLeft, Nat.shiftRight_eq_div_pow]
  rfl

/-- The whole number `m * 2 ^ e`, if it is one. -/
def magnitude? (m : Nat) (e : Int) : Option Nat :=
  if 0 ≤ e then some (m <<< e.toNat)
  else if m % (1 <<< (-e).toNat) = 0 then some (m >>> (-e).toNat) else none

theorem toInt?_of_finite {x : Binary64} {negative : Bool} {m : Nat} {e : Int}
    (read : x.read = .finite negative m e) :
    x.toInt? = (magnitude? m e).map fun n : Nat => if negative then -(n : Int) else n := by
  have unfolded : x.toInt? = Option.map (fun n : Int => if negative then -n else n)
      ((magnitude? m e).bind fun n => some (n : Int)) := by
    rw [toInt?, read]
    rfl
  rw [unfolded]
  cases magnitude? m e <;> rfl

theorem scaled_of_magnitude? {m k : Nat} {e : Int} (whole : magnitude? m e = some k) :
    k * 2 ^ (-e).toNat = m * 2 ^ e.toNat := by
  unfold magnitude? at whole
  split at whole
  next up =>
    obtain rfl := Option.some.inj whole
    have none : (-e).toNat = 0 := by omega
    rw [none, pow_zero, mul_one, Nat.shiftLeft_eq]
  next down =>
    have none : e.toNat = 0 := by omega
    split at whole
    next divides =>
      obtain rfl := Option.some.inj whole
      rw [Nat.one_shiftLeft] at divides
      rw [none, pow_zero, mul_one, Nat.shiftRight_eq_div_pow,
        Nat.div_mul_cancel (Nat.dvd_of_mod_eq_zero divides)]
    next => cases whole

theorem eq_zero_of_scaled {m k shift : Nat} (small : m < 2 ^ 52) (far : 52 ≤ shift)
    (scaled : k * 2 ^ shift = m) : k = 0 := by
  by_contra some_
  have large : 2 ^ 52 ≤ m := calc
    2 ^ 52 ≤ 2 ^ shift := Nat.pow_le_pow_right (by decide) far
    _ ≤ k * 2 ^ shift := Nat.le_mul_of_pos_left _ (Nat.pos_of_ne_zero some_)
    _ = m := scaled
  exact (small.trans_le large).false

/-- A number without a leading bit is less than one. -/
theorem magnitude?_subnormal {m k : Nat} (small : m < 2 ^ 52)
    (whole : magnitude? m (-1074) = some k) : k = 0 := by
  have down : (-(-1074 : Int)).toNat = 1074 := by decide
  have none : (-1074 : Int).toNat = 0 := by decide
  have scaled := scaled_of_magnitude? whole
  rw [down, none, pow_zero, mul_one] at scaled
  exact eq_zero_of_scaled small (by decide) scaled

theorem magnitude?_normal {m k p : Nat} (positive : p ≠ 0)
    (whole : magnitude? m (-1074 + (p - 1 : Nat)) = some k) : k * 2 ^ 1075 = m * 2 ^ p := by
  have scaled := scaled_of_magnitude? whole
  obtain ⟨d, rfl⟩ | ⟨d, same⟩ : (∃ d, p = 1075 + d) ∨ ∃ d, p + d = 1075 := by
    obtain large | small := Nat.le_total 1075 p
    · exact .inl (Nat.exists_eq_add_of_le large)
    · obtain ⟨d, same⟩ := Nat.exists_eq_add_of_le small
      exact .inr ⟨d, same.symm⟩
  -- either the significand is shifted up to the number, or the number up to the significand
  · have up : (-1074 + ((1075 + d - 1 : Nat) : Int)).toNat = d := by omega
    have none : (-(-1074 + ((1075 + d - 1 : Nat) : Int))).toNat = 0 := by omega
    rw [up, none, pow_zero, mul_one] at scaled
    rw [scaled, pow_add, mul_assoc, mul_comm (2 ^ d)]
  · have none : (-1074 + ((p - 1 : Nat) : Int)).toNat = 0 := by omega
    have down : (-(-1074 + ((p - 1 : Nat) : Int))).toNat = d := by omega
    rw [none, down, pow_zero, mul_one] at scaled
    rw [← scaled, ← same, pow_add, mul_assoc, mul_comm (2 ^ p)]

/-- A whole number that is not zero has a leading bit, and stands for its scaled significand. -/
theorem scaled_of_toInt? {x : Binary64} {n : Int} (whole : x.toInt? = some n) (nonzero : n ≠ 0) :
    (x.negative = true ↔ n < 0) ∧
      n.natAbs * 2 ^ 1075 = (2 ^ 52 + x.fraction) * 2 ^ x.exponent := by
  have read := x.read_eq
  split at read
  next =>
    have none : x.toInt? = none := by
      rw [toInt?, read]
      split_ifs <;> rfl
    cases none.symm.trans whole
  next =>
    split at read
    next =>
      -- without a leading bit the number would be zero
      rw [toInt?_of_finite read, Option.map_eq_some_iff] at whole
      obtain ⟨k, found, rfl⟩ := whole
      obtain rfl := magnitude?_subnormal x.fraction_lt found
      simp at nonzero
    next normal =>
      rw [toInt?_of_finite read, Option.map_eq_some_iff] at whole
      obtain ⟨k, found, rfl⟩ := whole
      have scaled := magnitude?_normal normal found
      cases sign : x.negative with
      | true =>
        simp only [sign, if_true, Int.natAbs_neg, Int.natAbs_natCast] at nonzero ⊢
        exact ⟨iff_of_true trivial (by omega), scaled⟩
      | false =>
        simp only [sign, Bool.false_eq_true, if_false, Int.natAbs_natCast] at nonzero ⊢
        exact ⟨iff_of_false not_false (by omega), scaled⟩

/-- Numbers that equal the same integer are the same, unless it is zero. -/
theorem eq_of_toInt? {x y : Binary64} {n : Int} (left : x.toInt? = some n)
    (right : y.toInt? = some n) (nonzero : n ≠ 0) : x = y := by
  obtain ⟨signX, scaledX⟩ := scaled_of_toInt? left nonzero
  obtain ⟨signY, scaledY⟩ := scaled_of_toInt? right nonzero
  have boundX := x.fraction_lt
  have boundY := y.fraction_lt
  obtain ⟨significand, exponent⟩ := scaled_unique (by omega) (by omega) (by omega) (by omega)
    (scaledX.symm.trans scaledY)
  have fraction : x.fraction = y.fraction := by omega
  have sign : x.negative = y.negative := by rw [Bool.eq_iff_iff, signX, signY]
  have bits : x.bits.toNat = y.bits.toNat := by
    rw [x.bits_eq, y.bits_eq, sign, exponent, fraction]
  obtain ⟨xs⟩ := x
  obtain ⟨ys⟩ := y
  exact congrArg mk (UInt64.toNat_inj.mp bits)

end Binary64

end TableExport.Decimal
