import Mathlib.Data.Int.Order.Basic
import BrowserFlow.Guard
import BrowserFlow.Proofs.Number.Rounding
/-! Guards on whole numbers. Both sides of a comparison are rounded to doubles first, and so a guard is
exact just for those numbers that doubles tell apart. -/
set_option autoImplicit false

namespace BrowserFlow

open Json Number

namespace Comparison

def Relates (comparison : Comparison) (left right : Int) : Prop :=
  match comparison with
  | equal => left = right
  | notEqual => left ≠ right
  | greater => left > right
  | less => left < right
  | greaterOrEqual => left ≥ right
  | lessOrEqual => left ≤ right

theorem allows_iff (comparison : Comparison) (left right : Int) (apart : comparison ≠ equal)
    (alike : comparison ≠ notEqual) :
    comparison.allows (Ord.compare left right) = true ↔ comparison.Relates left right := by
  cases comparison with
  | equal => exact absurd rfl apart
  | notEqual => exact absurd rfl alike
  | greater => simp [allows, Relates, compare_gt_iff_gt]
  | less => simp [allows, Relates, compare_lt_iff_lt]
  | greaterOrEqual => simp [allows, Relates, compare_lt_iff_lt]
  | lessOrEqual => simp [allows, Relates, compare_gt_iff_gt]

theorem integers_hold_iff (comparison : Comparison) (left right : Int) :
    comparison.holds (some (integer left)) (integer right) = true ↔
      comparison.Relates (Double.ofInt left).signedUnits (Double.ofInt right).signedUnits := by
  have equality : strictlyEqual (integer left) (integer right) = true ↔
      (Double.ofInt left).signedUnits = (Double.ofInt right).signedUnits := by
    simp [strictlyEqual, toDouble?, Double.same]
  have ordering : order? (integer left) (integer right) =
      some (Ord.compare (Double.ofInt left).signedUnits (Double.ofInt right).signedUnits) := rfl
  cases comparison with
  | equal => simpa [holds, Relates] using equality
  | notEqual =>
      simp only [holds, Option.any_some, Bool.not_eq_true', Relates, ne_eq, ← equality,
        Bool.not_eq_true]
  | greater => simpa [holds, ordering] using allows_iff greater _ _ nofun nofun
  | less => simpa [holds, ordering] using allows_iff less _ _ nofun nofun
  | greaterOrEqual => simpa [holds, ordering] using allows_iff greaterOrEqual _ _ nofun nofun
  | lessOrEqual => simpa [holds, ordering] using allows_iff lessOrEqual _ _ nofun nofun

-- Rounding keeps the order of numbers, and so all comparisons of those that it keeps apart.
theorem rounded_relates_iff (comparison : Comparison) (left right : Int)
    (apart : (Double.ofInt left).signedUnits = (Double.ofInt right).signedUnits → left = right) :
    comparison.Relates (Double.ofInt left).signedUnits (Double.ofInt right).signedUnits ↔
      comparison.Relates left right := by
  have upward := Double.of_int_monotone left right
  have downward := Double.of_int_monotone right left
  generalize (Double.ofInt left).signedUnits = leftUnits at *
  generalize (Double.ofInt right).signedUnits = rightUnits at *
  cases comparison <;> simp only [Relates] <;> omega

end Comparison

namespace Guard

def Decide (context : Context) (field : Reference) (value : Json) (relation : Comparison → Prop) :
    Prop :=
  ∀ comparison, (compare field comparison value).holds context = true ↔ relation comparison

-- Guards compare the doubles that are nearest to two whole numbers. They are exact if and only if these
-- doubles are different or the numbers the same, and so for all numbers up to 2⁵³.
theorem integers_compared (context : Context) (field : Reference) (left right : Int)
    (found : context.lookup field = some (integer left)) :
    Decide context field (integer right) (fun comparison =>
        comparison.Relates (Double.ofInt left).signedUnits (Double.ofInt right).signedUnits) ∧
      (Decide context field (integer right) (fun comparison => comparison.Relates left right) ↔
        ((Double.ofInt left).signedUnits = (Double.ofInt right).signedUnits → left = right)) ∧
      (left.natAbs ≤ 2 ^ significandBits → right.natAbs ≤ 2 ^ significandBits →
        Decide context field (integer right) fun comparison => comparison.Relates left right) := by
  have rounded : Decide context field (integer right) fun comparison =>
      comparison.Relates (Double.ofInt left).signedUnits (Double.ofInt right).signedUnits := by
    intro comparison
    rw [holds, found]
    exact Comparison.integers_hold_iff comparison left right
  have exactly : ((Double.ofInt left).signedUnits = (Double.ofInt right).signedUnits → left = right) →
      Decide context field (integer right) fun comparison => comparison.Relates left right :=
    fun apart comparison =>
      (rounded comparison).trans (Comparison.rounded_relates_iff comparison left right apart)
  refine ⟨rounded, ⟨fun decide same => ?_, exactly⟩, fun leftShort rightShort => exactly fun same => ?_⟩
  · exact (decide .equal).mp ((rounded .equal).mpr same)
  · rw [Double.of_int_exact left leftShort, Double.of_int_exact right rightShort] at same
    apply Int.eq_of_mul_eq_mul_right _ same
    rw [units_per_one_power]
    exact Int.natCast_ne_zero.mpr (Nat.pos_iff_ne_zero.mp (Nat.two_pow_pos _))

def account : Reference := ⟨.input, ["account"]⟩

def order : Context := ⟨[], [], [("account", integer 9007199254740993)], 0⟩

theorem integers_compared_account :
    order.lookup account = some (integer 9007199254740993) ∧
      Decide order account (integer 9007199254740996) fun comparison =>
        comparison.Relates 9007199254740993 9007199254740996 := by
  have found : order.lookup account = some (integer 9007199254740993) := by rfl
  refine ⟨found, (integers_compared order account _ _ found).2.1.mpr fun same => ?_⟩
  exact absurd same (by decide +kernel)

theorem neighbours_confused :
    order.lookup account = some (integer 9007199254740993) ∧
      fitsInteger 9007199254740993 = true ∧ fitsInteger 9007199254740992 = true ∧
      (compare account .equal (integer 9007199254740992)).holds order = true ∧
      ¬ Comparison.Relates .equal 9007199254740993 9007199254740992 ∧
      (compare account .greater (integer 9007199254740992)).holds order = false ∧
      Comparison.Relates .greater 9007199254740993 9007199254740992 := by
  refine ⟨by rfl, by decide +kernel, by decide +kernel, by decide +kernel, ?_, by decide +kernel, ?_⟩
  · simp [Comparison.Relates]
  · simp [Comparison.Relates]

end Guard

end BrowserFlow
