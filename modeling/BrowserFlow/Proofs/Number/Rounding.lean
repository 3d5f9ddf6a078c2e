import Mathlib.Algebra.Order.Group.Nat
import BrowserFlow.Number.Double
/-! Rounding to doubles. A greater number is never rounded to a smaller one, and a number of at most 53
binary digits before its zeros is not changed; so doubles hold whole numbers up to 2⁵³ as they are. -/
set_option autoImplicit false

namespace BrowserFlow.Number

theorem round_quotient_cases (num den : Nat) :
    (roundQuotient num den = num / den ∧ 2 * (num % den) ≤ den) ∨
      (roundQuotient num den = num / den + 1 ∧ den ≤ 2 * (num % den)) := by
  unfold roundQuotient
  simp only
  split
  · omega
  · split <;> omega

theorem round_quotient_monotone (smaller greater den : Nat) (ordered : smaller ≤ greater) :
    roundQuotient smaller den ≤ roundQuotient greater den := by
  by_cases same : smaller = greater
  · exact Nat.le_of_eq (by rw [same])
  · have quotients : smaller / den ≤ greater / den := Nat.div_le_div_right ordered
    have below := Nat.div_add_mod smaller den
    have above := Nat.div_add_mod greater den
    rcases round_quotient_cases smaller den with ⟨down, _⟩ | ⟨up, half⟩
    · rcases round_quotient_cases greater den with ⟨rounded, _⟩ | ⟨rounded, _⟩ <;> omega
    · rcases round_quotient_cases greater den with ⟨rounded, short⟩ | ⟨rounded, _⟩
      · -- With one quotient the greater number would have the greater remainder, and be rounded up too.
        have apart : smaller / den ≠ greater / den := fun equal => by
          rw [equal] at below
          omega
        omega
      · omega

theorem round_quotient_whole (count den : Nat) (positive : 0 < den) :
    roundQuotient (count * den) den = count := by
  unfold roundQuotient
  simp only [Nat.mul_mod_left, Nat.mul_div_cancel count positive]
  rw [if_pos (by omega)]

theorem below_bit_length (num : Nat) : num < 2 ^ bitLength num := by
  unfold bitLength
  by_cases nothing : num = 0
  · simp [nothing]
  · simpa only [if_neg nothing] using Nat.lt_log2_self

theorem bit_length_le_iff (num power : Nat) : bitLength num ≤ power ↔ num < 2 ^ power := by
  unfold bitLength
  by_cases nothing : num = 0
  · rw [if_pos nothing, nothing]
    exact iff_of_true (Nat.zero_le power) (Nat.two_pow_pos power)
  · rw [if_neg nothing, Nat.succ_le_iff]
    exact Nat.log2_lt nothing

theorem round_units_of_length (num : Nat) :
    roundUnits num 1 = roundQuotient num (2 ^ (bitLength num - significandBits)) *
      2 ^ (bitLength num - significandBits) := by
  simp only [roundUnits, twoTo, Nat.div_one, Nat.one_mul]
  rfl

theorem round_quotient_multiple (count power step : Nat) (within : step ≤ power) :
    roundQuotient (count * 2 ^ power) (2 ^ step) * 2 ^ step = count * 2 ^ power := by
  rw [← Nat.pow_sub_mul_pow 2 within, ← Nat.mul_assoc,
    round_quotient_whole _ _ (Nat.two_pow_pos step)]

theorem round_quotient_power (power step : Nat) (within : step ≤ power) :
    roundQuotient (2 ^ power) (2 ^ step) * 2 ^ step = 2 ^ power := by
  simpa only [Nat.one_mul] using round_quotient_multiple 1 power step within

theorem round_units_le (num power : Nat) (below : num ≤ 2 ^ power)
    (step : bitLength num - significandBits ≤ power) : roundUnits num 1 ≤ 2 ^ power :=
  calc roundUnits num 1
      = roundQuotient num (2 ^ (bitLength num - significandBits)) *
          2 ^ (bitLength num - significandBits) := round_units_of_length num
    _ ≤ roundQuotient (2 ^ power) (2 ^ (bitLength num - significandBits)) *
          2 ^ (bitLength num - significandBits) :=
        Nat.mul_le_mul_right _ (round_quotient_monotone num _ _ below)
    _ = 2 ^ power := round_quotient_power power _ step

theorem le_round_units (num power : Nat) (above : 2 ^ power ≤ num)
    (step : bitLength num - significandBits ≤ power) : 2 ^ power ≤ roundUnits num 1 :=
  calc 2 ^ power
      = roundQuotient (2 ^ power) (2 ^ (bitLength num - significandBits)) *
          2 ^ (bitLength num - significandBits) := (round_quotient_power power _ step).symm
    _ ≤ roundQuotient num (2 ^ (bitLength num - significandBits)) *
          2 ^ (bitLength num - significandBits) :=
        Nat.mul_le_mul_right _ (round_quotient_monotone _ num _ above)
    _ = roundUnits num 1 := (round_units_of_length num).symm

-- Numbers of one length are rounded by one step. Between numbers of unlike lengths stands a power of
-- two, which neither of them is rounded across.
theorem round_units_monotone (smaller greater : Nat) (ordered : smaller ≤ greater) :
    roundUnits smaller 1 ≤ roundUnits greater 1 := by
  by_cases same : bitLength smaller = bitLength greater
  · rw [round_units_of_length smaller, round_units_of_length greater, same]
    exact Nat.mul_le_mul_right _ (round_quotient_monotone smaller greater _ ordered)
  · have shorter : bitLength smaller < bitLength greater := by
      apply Nat.lt_of_le_of_ne _ same
      rw [bit_length_le_iff]
      exact Nat.lt_of_le_of_lt ordered (below_bit_length greater)
    have above : 2 ^ bitLength smaller ≤ greater := by
      apply Nat.le_of_not_lt
      rw [← bit_length_le_iff]
      omega
    have lead : 2 ^ (bitLength greater - 1) ≤ greater := by
      apply Nat.le_of_not_lt
      rw [← bit_length_le_iff]
      omega
    calc roundUnits smaller 1
        ≤ 2 ^ bitLength smaller :=
          round_units_le smaller _ (Nat.le_of_lt (below_bit_length smaller)) (by omega)
      _ ≤ 2 ^ (bitLength greater - 1) := Nat.pow_le_pow_right (by omega) (by omega)
      _ ≤ roundUnits greater 1 := le_round_units greater _ lead (by simp [significandBits]; omega)

theorem round_units_exact (count power : Nat) (short : count < 2 ^ significandBits) :
    roundUnits (count * 2 ^ power) 1 = count * 2 ^ power := by
  have length : bitLength (count * 2 ^ power) - significandBits ≤ power := by
    have bound : bitLength (count * 2 ^ power) ≤ significandBits + power := by
      rw [bit_length_le_iff, Nat.pow_add]
      exact Nat.mul_lt_mul_of_pos_right short (Nat.two_pow_pos power)
    omega
  rw [round_units_of_length]
  exact round_quotient_multiple count power _ length

theorem units_per_one_power : unitsPerOne = 2 ^ unitPower := by
  rw [unitsPerOne, twoTo, Nat.pow_eq]

namespace Double

theorem of_int_units (value : Int) : (ofInt value).signedUnits =
    if value < 0 then -(roundUnits (value.natAbs * unitsPerOne) 1 : Int)
    else roundUnits (value.natAbs * unitsPerOne) 1 := by
  simp [signedUnits, ofInt]

theorem of_int_monotone (smaller greater : Int) (ordered : smaller ≤ greater) :
    (ofInt smaller).signedUnits ≤ (ofInt greater).signedUnits := by
  have monotone : ∀ left right : Nat, left ≤ right →
      roundUnits (left * unitsPerOne) 1 ≤ roundUnits (right * unitsPerOne) 1 := fun left right below =>
    round_units_monotone _ _ (Nat.mul_le_mul_right _ below)
  rw [of_int_units, of_int_units]
  by_cases negative : greater < 0
  · have reversed := monotone greater.natAbs smaller.natAbs (by omega)
    rw [if_pos negative, if_pos (by omega)]
    omega
  · rw [if_neg negative]
    by_cases below : smaller < 0
    · rw [if_pos below]
      omega
    · have along := monotone smaller.natAbs greater.natAbs (by omega)
      rw [if_neg below]
      omega

theorem of_int_exact (value : Int) (short : value.natAbs ≤ 2 ^ significandBits) :
    (ofInt value).signedUnits = value * unitsPerOne := by
  have exact : roundUnits (value.natAbs * unitsPerOne) 1 = value.natAbs * unitsPerOne := by
    rw [units_per_one_power]
    by_cases longest : value.natAbs = 2 ^ significandBits
    · have single := round_units_exact 1 (significandBits + unitPower) (by decide)
      rw [Nat.one_mul] at single
      rw [longest, ← Nat.pow_add]
      exact single
    · exact round_units_exact value.natAbs unitPower (by omega)
  rw [of_int_units, exact]
  by_cases negative : value < 0
  · rw [if_pos negative, Int.natCast_mul, ← Int.neg_mul]
    congr 1
    omega
  · rw [if_neg negative, Int.natCast_mul]
    congr 1
    omega

end Double

end BrowserFlow.Number
