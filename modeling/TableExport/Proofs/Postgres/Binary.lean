import Mathlib
import TableExport.Postgres.Value

/-!
# Binary numbers

Numbers in bytes with the most significant one first, negative ones in two's complement: each
is read back from its bytes, and the bytes show the number in sixteen digits.
-/
namespace TableExport.Postgres

/-! ## Unsigned numbers -/

/-- The last `width` bytes of a number. -/
def unsigned : Nat → Nat → Bytes
  | 0, _ => []
  | width + 1, n => unsigned width (n / 256) ++ [UInt8.ofNat n]

@[simp] theorem unsigned_length (width n : Nat) : (unsigned width n).length = width := by
  induction width generalizing n with
  | zero => rfl
  | succ width ih => rw [unsigned, List.length_append, ih, List.length_singleton]

theorem bigEndian_unsigned {width n : Nat} (fits : n < 256 ^ width) :
    (unsigned width n).bigEndian = n := by
  induction width generalizing n with
  | zero =>
    have zero : n = 0 := Nat.lt_one_iff.mp fits
    rw [zero]
    rfl
  | succ width ih =>
    have front : n / 256 < 256 ^ width := by
      rw [pow_succ] at fits
      exact Nat.div_lt_of_lt_mul (Nat.mul_comm _ 256 ▸ fits)
    have value := ih front
    unfold Bytes.bigEndian at value ⊢
    rw [unsigned, List.foldl_append, value, List.foldl_cons, List.foldl_nil, UInt8.toNat_ofNat']
    exact Nat.div_add_mod' n 256

/-! ## Two's complement -/

/-- An integer in `width` bytes. -/
def twosComplement (width : Nat) (n : Int) : Bytes := unsigned width (n % 256 ^ width).toNat

theorem signed_twosComplement {width : Nat} {n : Int} (low : -256 ^ width ≤ 2 * n)
    (high : 2 * n < 256 ^ width) : signed (twosComplement width n) = n := by
  have positive : (0 : Int) < 256 ^ width := by positivity
  have rest : ((n % 256 ^ width).toNat : Int) = n % 256 ^ width :=
    Int.toNat_of_nonneg (Int.emod_nonneg n positive.ne')
  have value : (twosComplement width n).bigEndian = (n % 256 ^ width).toNat := by
    refine bigEndian_unsigned ?_
    zify
    rw [rest]
    exact Int.emod_lt_of_pos n positive
  have bound : (1 <<< (8 * (twosComplement width n).length) : Nat) = 256 ^ width := by
    rw [twosComplement, unsigned_length, Nat.one_shiftLeft, pow_mul]
    norm_num
  simp only [signed, value, bound, ← Int.ofNat_le]
  push_cast
  rw [rest]
  -- the remainder of a negative number lies in the upper half
  obtain negative | natural := lt_or_ge n 0
  · have upper : n % 256 ^ width = n + 256 ^ width := by
      rw [← Int.add_emod_right, Int.emod_eq_of_lt (by omega) (by omega)]
    rw [upper, if_pos (by omega), add_sub_cancel_right]
  · have lower : n % 256 ^ width = n := Int.emod_eq_of_lt natural (by omega)
    rw [lower, if_neg (by omega)]

/-- An integer of `width` bytes is read with as many bits. -/
theorem integer_twosComplement {width : Nat} (one : 1 ≤ width) (eight : width ≤ 8) {n : Int}
    (low : -2 ^ (8 * width - 1) ≤ n) (high : n < 2 ^ (8 * width - 1)) :
    integer (8 * width) (twosComplement width n) = .ok n := by
  have half : (256 : Int) ^ width = 2 * 2 ^ (8 * width - 1) := by
    rw [show (256 : Int) = 2 ^ 8 by norm_num, ← pow_mul, ← pow_succ', Nat.sub_add_cancel (by omega)]
  have value : signed (twosComplement width n) = n :=
    signed_twosComplement (by omega) (by omega)
  have size : ¬((twosComplement width n).length = 0 ∨ 8 < (twosComplement width n).length) := by
    rw [twosComplement, unsigned_length]
    omega
  have range : -((1 <<< (8 * width - 1) : Nat) : Int) ≤ n ∧ n < (1 <<< (8 * width - 1) : Nat) := by
    rw [Nat.one_shiftLeft]
    push_cast
    exact ⟨low, high⟩
  simp only [integer, if_neg size, value, if_pos range]

/-! ## Sixteen digits -/

/-- One digit more at the right. -/
theorem leftpad_toDigits {base : Nat} (digits : 1 < base) {width : Nat} (wide : 0 < width)
    (n : Nat) :
    (Nat.toDigits base n).leftpad (width + 1) '0' =
      (Nat.toDigits base (n / base)).leftpad width '0' ++ [Nat.digitChar (n % base)] := by
  by_cases one : n < base
  · rw [Nat.toDigits_of_lt_base one, Nat.div_eq_of_lt one, Nat.mod_eq_of_lt one, Nat.toDigits_zero]
    obtain ⟨before, rfl⟩ := Nat.exists_eq_add_one_of_ne_zero wide.ne'
    simp [List.leftpad, List.replicate_succ']
  · rw [Nat.toDigits_of_base_le digits (Nat.le_of_not_lt one)]
    simp [List.leftpad]

theorem hexByte_ofNat (n : Nat) :
    hexByte (UInt8.ofNat n) = [Nat.digitChar (n / 16 % 16), Nat.digitChar (n % 16)] := by
  have high : n % 256 / 16 = n / 16 % 16 := by omega
  have low : n % 256 % 16 = n % 16 := by omega
  rw [hexByte, UInt8.toNat_ofNat', high, low]

/-- The bytes of a number, two digits for each. -/
theorem hexBytes_unsigned {width n : Nat} (fits : n < 256 ^ (width + 1)) :
    (unsigned (width + 1) n).flatMap hexByte =
      (Nat.toDigits 16 n).leftpad (2 * (width + 1)) '0' := by
  induction width generalizing n with
  | zero =>
    have one : n / 16 < 16 := by omega
    rw [leftpad_toDigits (by decide) (by decide), Nat.toDigits_of_lt_base one]
    show hexByte (UInt8.ofNat n) = [(n / 16).digitChar, (n % 16).digitChar]
    rw [hexByte_ofNat, Nat.mod_eq_of_lt one]
  | succ width ih =>
    have front : n / 256 < 256 ^ (width + 1) := by
      rw [pow_succ] at fits
      exact Nat.div_lt_of_lt_mul (Nat.mul_comm _ 256 ▸ fits)
    have last : (Nat.toDigits 16 n).leftpad (2 * (width + 1) + 2) '0' =
        (Nat.toDigits 16 (n / 256)).leftpad (2 * (width + 1)) '0' ++
          [Nat.digitChar (n / 16 % 16), Nat.digitChar (n % 16)] := by
      rw [leftpad_toDigits (by decide) (Nat.succ_pos _),
        leftpad_toDigits (by decide) (by omega : 0 < 2 * (width + 1)), Nat.div_div_eq_div_mul,
        List.append_assoc, List.singleton_append]
    rw [unsigned, List.flatMap_append, ih front, List.flatMap_singleton, hexByte_ofNat, ← last]
    rfl

end TableExport.Postgres
