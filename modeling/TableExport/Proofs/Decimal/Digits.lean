import Mathlib
import TableExport.Decimal.Digits

/-!
# Decimal texts

The texts of numbers are those that `toString` gives, and padded numbers are their digits with
zeros on the left. Zeros at the end of a fraction carry nothing.
-/
namespace TableExport.Decimal

theorem digitChar_eq {n : Nat} (small : n < 10) : digitChar n = Nat.digitChar n := by
  interval_cases n <;> rfl

theorem digits_eq (n : Nat) : digits n = Nat.toDigits 10 n := by
  induction n using digits.induct with
  | case1 n small => rw [digits, if_pos small, Nat.toDigits_of_lt_base small, digitChar_eq small]
  | case2 n large ih =>
    rw [digits, if_neg large, ih, Nat.toDigits_of_base_le (by decide) (Nat.le_of_not_lt large),
      digitChar_eq (Nat.mod_lt n (by decide))]

theorem value_digits (n : Nat) : value (digits n) = n := by
  have same : value (digits n) = Nat.ofDigitChars 10 (digits n) 0 := by
    simp only [value, Nat.ofDigitChars_eq_foldl, Nat.mul_comm 10]
    rfl
  rw [same, digits_eq, Nat.ofDigitChars_toDigits (by decide) (by decide)]

theorem digits_ne_nil (n : Nat) : digits n ≠ [] := digits_eq n ▸ Nat.toDigits_ne_nil

theorem isDigit_digits (n : Nat) : ∀ c ∈ digits n, c.isDigit = true := by
  rw [digits_eq]
  exact fun c member => Nat.isDigit_of_mem_toDigits (by decide) (by decide) member

theorem natural_eq (n : Nat) : natural n = toString n := by
  rw [natural, digits_eq, ← Nat.repr_eq_ofList_toDigits]
  rfl

theorem isDigit_toString (n : Nat) : ∀ c ∈ (toString n).toList, c.isDigit = true := by
  rw [← natural_eq, natural, String.toList_ofList]
  exact isDigit_digits n

theorem value_toString (n : Nat) : value (toString n).toList = n := by
  rw [← natural_eq, natural, String.toList_ofList, value_digits]

theorem length_toString_le {width n : Nat} (some : 0 < width) (fits : n < 10 ^ width) :
    (toString n).length ≤ width := by
  rw [← natural_eq, natural, String.length_ofList, digits_eq]
  exact Nat.toDigits_length 10 n width some fits

theorem integer_eq (n : Int) : integer n = toString n := by
  cases n with
  | ofNat n =>
    rw [integer, if_neg (by simp)]
    exact natural_eq n
  | negSucc n =>
    show _ = "-" ++ Nat.repr (n + 1)
    rw [integer, if_pos (Int.negSucc_lt_zero n), digits_eq, Nat.repr_eq_ofList_toDigits]
    exact @String.ofList_append ['-'] _

theorem padded_eq (width n : Nat) : padded width n = (Nat.toDigits 10 n).leftpad width '0' := by
  rw [padded, digits_eq, List.leftpad]

theorem padded_mul_ten (width : Nat) {n : Nat} (positive : 0 < n) :
    padded (width + 1) (10 * n) = padded width n ++ ['0'] := by
  have digits_mul : digits (10 * n) = digits n ++ ['0'] := by
    rw [digits, if_neg (by omega), Nat.mul_div_cancel_left n (by decide), Nat.mul_mod_right]
    rfl
  rw [padded, padded, digits_mul, List.length_append, List.length_singleton,
    Nat.add_sub_add_right, List.append_assoc]

theorem withoutTrailingZeros_padded (width : Nat) {n : Nat} (positive : 0 < n) :
    withoutTrailingZeros (padded (width + 1) (10 * n)) = withoutTrailingZeros (padded width n) := by
  rw [padded_mul_ten width positive, withoutTrailingZeros, List.reverse_append]
  rfl

end TableExport.Decimal
