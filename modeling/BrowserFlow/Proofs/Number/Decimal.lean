import BrowserFlow.Number.Decimal
import BrowserFlow.Proofs.Json.Numeral
import BrowserFlow.Proofs.Number.Rounding
/-! Decimals of whole numbers. A whole number of 64 bits is read from its own decimal text as the double
that is nearest to it, and so reading the text rounds where converting the number does. -/
set_option autoImplicit false

namespace BrowserFlow.Number

open Text Json

theorem rounded_below_limit (n : Nat) (small : n < 2 ^ 64) :
    roundUnits (n * unitsPerOne) 1 < unitsLimit := by
  rw [units_per_one_power, unitsLimit, twoTo, Nat.pow_eq]
  generalize unitPower = power
  have below : n * 2 ^ power ≤ 1 * 2 ^ (64 + power) := by
    rw [Nat.one_mul, Nat.pow_add]
    exact Nat.mul_le_mul_right _ (Nat.le_of_lt small)
  have rounded := round_units_monotone _ _ below
  rw [round_units_exact 1 (64 + power) (by decide), Nat.one_mul] at rounded
  exact Nat.lt_of_le_of_lt rounded (Nat.pow_lt_pow_right (by decide) (by omega))

theorem whole_scientific (negative : Bool) (n : Nat) (small : n < 2 ^ 64) :
    ofScientific negative n 0 = .finite ⟨negative, roundUnits (n * unitsPerOne) 1⟩ := by
  have short : (decimalDigits n).length ≤ 20 :=
    (Nat.length_toDigits_le_iff (by decide) (by decide)).mpr (Nat.lt_trans small (by decide))
  unfold ofScientific
  by_cases nothing : n = 0
  · have zero := round_units_exact 0 unitPower (by decide)
    rw [← units_per_one_power, Nat.zero_mul] at zero
    simp only [nothing, Nat.zero_mul, zero, if_true]
  · have limited := rounded_below_limit n small
    simp only [if_neg nothing]
    rw [if_neg (by omega), if_neg (by omega)]
    simp only [tenTo, Nat.pow_eq, Nat.pow_zero, Nat.mul_one, Extended.ofUnits, if_pos limited]

theorem decimal_digits (n : Nat) : isDigits (decimalDigits n) = true := by
  have some : (decimalDigits n).isEmpty = false := by
    rw [List.isEmpty_eq_false_iff]
    exact Nat.toDigits_ne_nil
  simp only [isDigits, some, List.all_eq_true.mpr (digits_digit n)]
  rfl

theorem unsigned_digits_read (negative : Bool) (digits : List Char) (all : isDigits digits = true)
    (small : digitsValue digits < 2 ^ 64) :
    readUnsigned? negative digits =
      some (.finite ⟨negative, roundUnits (digitsValue digits * unitsPerOne) 1⟩) := by
  simp only [isDigits, Bool.and_eq_true, Bool.not_eq_true', List.all_eq_true] at all
  have whole := List.takeWhile_eq_self_iff.mpr all.2
  have nothing := List.dropWhile_eq_nil_iff.mpr all.2
  have cut : splitDecimal digits = some (digits, [], []) := by
    simp [splitDecimal, whole, nothing, all.1]
  simp [readUnsigned?, cut, readExponent?, whole_scientific negative _ small]

theorem digit_unchanged (c : Char) (digit : isDigit c = true) : lowerChar c = c := by
  have upper : c ≤ '9' := by
    simp only [isDigit, Bool.and_eq_true, decide_eq_true_eq] at digit
    exact digit.2
  have small : ¬('A' ≤ c ∧ c ≤ 'Z') := fun capital =>
    absurd (Char.le_trans capital.1 upper) (by decide)
  rw [lowerChar, if_neg (by simpa using small)]

theorem digits_no_word (digits : List Char) (all : isDigits digits = true) (c : Char)
    (tail : List Char) (letter : isDigit c = false) : (digits.map lowerChar == c :: tail) = false := by
  rw [beq_eq_false_iff_ne]
  intro same
  cases digits with
  | nil => cases all
  | cons first others =>
      simp only [isDigits, Bool.and_eq_true, List.all_eq_true] at all
      have digit := all.2 first List.mem_cons_self
      rw [List.map_cons, digit_unchanged first digit, List.cons.injEq] at same
      rw [same.1, letter] at digit
      cases digit

theorem digits_sign (n : Nat) : splitSign (decimalDigits n) = (false, decimalDigits n) := by
  have digits := digits_digit n
  unfold splitSign
  split
  · rename_i rest chars
    exact absurd (digits '-' (chars ▸ List.mem_cons_self)) (by decide)
  · rename_i rest chars
    exact absurd (digits '+' (chars ▸ List.mem_cons_self)) (by decide)
  · rfl

theorem signed_digits_read (chars digits : List Char) (negative : Bool)
    (signed : splitSign chars = (negative, digits)) (all : isDigits digits = true)
    (small : digitsValue digits < 2 ^ 64) :
    readDecimal? chars =
      some (.finite ⟨negative, roundUnits (digitsValue digits * unitsPerOne) 1⟩) := by
  have inf := digits_no_word digits all 'i' ['n', 'f'] (by decide)
  have infinity := digits_no_word digits all 'i' ['n', 'f', 'i', 'n', 'i', 't', 'y'] (by decide)
  have nan := digits_no_word digits all 'n' ['a', 'n'] (by decide)
  have read := unsigned_digits_read negative digits all small
  simp only [readDecimal?, signed]
  rw [if_neg (by simpa [inf] using infinity), if_neg (by simpa using nan), read]

theorem whole_sign (value : Int) :
    splitSign (Text.ofInt value).toList = (decide (value < 0), decimalDigits value.natAbs) := by
  cases value with
  | ofNat n =>
      have positive : ¬(n : Int) < 0 := by omega
      simpa [Text.ofInt, ofNat, positive] using digits_sign n
  | negSucc n => simp [Text.ofInt, ofNat, splitSign]

theorem whole_read (value : Int) (fits : fitsInteger value = true) :
    readDecimal? (Text.ofInt value).toList = some (.finite (.ofInt value)) := by
  have small : value.natAbs < 2 ^ 64 := by
    simp only [fitsInteger, Bool.and_eq_true, decide_eq_true_iff] at fits
    simp only [twoTo, Nat.pow_eq] at fits
    omega
  have read := signed_digits_read _ _ _ (whole_sign value) (decimal_digits _)
    (by rwa [digits_value])
  rwa [digits_value] at read

theorem signed_magnitude (value : Int) :
    (if decide (value < 0) = true then -(value.natAbs : Int) else value.natAbs) = value := by
  by_cases negative : value < 0
  · rw [if_pos (by simpa using negative)]
    omega
  · rw [if_neg (by simpa using negative)]
    omega

theorem whole_integer_read (value : Int) : readInteger? (Text.ofInt value).toList = some value := by
  rw [readInteger?, whole_sign]
  dsimp only
  rw [if_pos (decimal_digits _), digits_value]
  exact congrArg some (signed_magnitude value)

theorem signed_integer_read (chars : List Char) (value : Int) (read : readSigned? chars = some value) :
    ∃ double, readDecimal? chars = some (.finite double) := by
  obtain ⟨whole, fits⟩ := Option.filter_eq_some_iff.mp read
  rcases signed : splitSign chars with ⟨negative, digits⟩
  simp only [readInteger?, signed] at whole
  split at whole
  · rename_i all
    refine ⟨_, signed_digits_read chars digits negative signed all ?_⟩
    simp only [fitsSigned, Bool.and_eq_true, decide_eq_true_iff] at fits
    simp only [twoTo, Nat.pow_eq] at fits
    rw [Option.some.injEq] at whole
    split at whole
    · omega
    · omega
  · cases whole

end BrowserFlow.Number
