import BrowserFlow.Proofs.Number.Decimal
import BrowserFlow.Yaml.Document
/-! Whole numbers in documents. A plain scalar that is the decimal text of a whole number of 64 bits has
that number for its value, wherever it stands. -/
set_option autoImplicit false

namespace BrowserFlow.Yaml

open Json Number

theorem digit_read (c : Char) (digit : Text.isDigit c = true) :
    digit? 10 c = some (Text.digitValue c) := by
  have small : Text.digitValue c < 10 := by
    simp only [Text.isDigit, Bool.and_eq_true, decide_eq_true_eq, Char.le_def,
      UInt32.le_iff_toNat_le] at digit
    have upper : c.toNat ≤ 57 := digit.2
    have zero : '0'.toNat = 48 := rfl
    rw [Text.digitValue, zero]
    omega
  simp [digit?, digit, small]

theorem read_digits_value (total : Nat) (digits : List Char)
    (all : ∀ c ∈ digits, Text.isDigit c = true) :
    readDigits 10 total digits =
      some (digits.foldl (fun total digit => total * 10 + Text.digitValue digit) total) := by
  induction digits generalizing total with
  | nil => rfl
  | cons c rest ih =>
      obtain ⟨first, others⟩ := List.forall_mem_cons.mp all
      rw [readDigits, digit_read c first, List.foldl_cons]
      exact ih _ others

theorem digits_unpadded (n : Nat) : hasLeadingZero (Text.decimalDigits n) = false := by
  simp only [hasLeadingZero, digits_sign]
  split
  · rename_i rest zero
    have nothing := digits_lead n rest zero
    subst nothing
    cases zero
    rfl
  · rfl

theorem magnitude_read (n : Nat) : readMagnitude? (Text.decimalDigits n) = some n := by
  have digits := digits_digit n
  have value : readBase? 10 (Text.decimalDigits n) = some n := by
    rw [readBase?, if_neg, read_digits_value 0 _ digits, ← Text.digitsValue, digits_value]
    rw [List.isEmpty_iff]
    exact Nat.toDigits_ne_nil
  -- No digit stands for a base.
  have unmarked : ∀ c, Text.isDigit c = false → c ∉ Text.decimalDigits n := fun c foreign =>
    Text.free_of_class Text.isDigit _ digits c foreign
  unfold readMagnitude?
  split
  · rename_i chars
    exact absurd (chars ▸ by simp) (unmarked 'x' (by decide))
  · rename_i chars
    exact absurd (chars ▸ by simp) (unmarked 'o' (by decide))
  · rename_i chars
    exact absurd (chars ▸ by simp) (unmarked 'b' (by decide))
  · rw [digits_unpadded, if_neg Bool.false_ne_true, value]

theorem whole_scalar_read (value : Int) : readWhole? (Text.ofInt value).toList = some value := by
  rw [readWhole?, whole_sign]
  dsimp only
  rw [magnitude_read]
  exact congrArg some (signed_magnitude value)

theorem whole_no_word (value : Int) (words : List String)
    (foreign : (words.all fun word => word.toList.any fun c => !isNumeral c) = true) :
    words.contains (Text.ofInt value) = false := by
  rw [List.contains_eq_mem, decide_eq_false_iff_not]
  intro listed
  obtain ⟨c, inside, strange⟩ := List.any_eq_true.mp (List.all_eq_true.mp foreign _ listed)
  rw [whole_numerals value c inside] at strange
  cases strange

theorem whole_not_empty (value : Int) : (Text.ofInt value).isEmpty = false := by
  rw [Bool.eq_false_iff, Ne, String.isEmpty_iff]
  intro empty
  have sign := whole_sign value
  rw [empty] at sign
  exact Nat.toDigits_ne_nil (Prod.mk.inj sign).2.symm

theorem whole_plain (value : Int) (fits : fitsInteger value = true) :
    plainValue? (Text.ofInt value) = some (integer value) := by
  have wide : isWide value = true := by
    simp only [fitsInteger, Bool.and_eq_true, decide_eq_true_iff] at fits
    simp only [isWide, Bool.and_eq_true, decide_eq_true_iff]
    simp only [twoTo, Nat.pow_eq] at fits ⊢
    omega
  have noNull : isNullWord (Text.ofInt value) = false := whole_no_word value _ (by decide)
  have noTruth : readTruth? (Text.ofInt value) = none := by
    rw [readTruth?, whole_no_word value _ (by decide), whole_no_word value _ (by decide)]
    rfl
  have whole : (readWhole? (Text.ofInt value).toList).filter isWide = some value := by
    rw [whole_scalar_read, Option.filter_some, if_pos wide]
  simp [plainValue?, whole_not_empty, noNull, noTruth, whole, fits]

theorem whole_literal_value (document : Document) (depth : Nat) (path : NodePath)
    (anchor : Option Nat) (mark : Mark) (value : Int) (fits : fitsInteger value = true) (left : Nat) :
    (document.nodeValue depth path (.scalar ⟨anchor, none, mark⟩ true (Text.ofInt value))).run left =
      .ok (integer value, left) := by
  have scalar : scalarValue none true (Text.ofInt value) = .ok (integer value) := by
    rw [scalarValue, checkTag, plainValue, whole_plain value fits]
    rfl
  unfold Document.nodeValue
  simp only [Document.target, pure_bind, scalar]
  rfl

end BrowserFlow.Yaml
