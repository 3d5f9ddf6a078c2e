import Mathlib.Algebra.Group.Int.Defs
import BrowserFlow.Proofs.Guard.Texts
import BrowserFlow.Proofs.Yaml.Whole
import BrowserFlow.Workflow.InputText
/-! Input texts and their values. A text that gives a value is accepted as a text, and so is its value; a
text of a number is accepted without having a value when it is read as no finite number. Whole numbers of 64
bits with a sign are read as they are, and larger ones are rounded to doubles. -/
set_option autoImplicit false

namespace BrowserFlow

open Json Number

def Parameter.IsNumeric (parameter : Parameter) : Prop :=
  ∃ declared, parameter.type = some declared ∧
    (Text.lower declared = "number" ∨ Text.lower declared = "integer")

-- A text that is read as a number, but as one that no document can hold: an infinity, which a number
-- beyond the range of doubles is too, or none at all.
def Nonfinite (text : String) : Prop :=
  ∃ value, readNumberText? text = some value ∧ value.finite? = none

theorem Parameter.numeric_iff (parameter : Parameter) : parameter.kind = .number ↔ parameter.IsNumeric := by
  unfold Parameter.kind Parameter.IsNumeric
  cases parameter.type with
  | none => simp
  | some declared =>
      have named : InputKind.ofType declared = .number ↔
          Text.lower declared = "number" ∨ Text.lower declared = "integer" := by
        unfold InputKind.ofType
        dsimp only
        split
        · rename_i numeric
          simpa using numeric
        · rename_i other
          have apart : ¬(Text.lower declared = "number" ∨ Text.lower declared = "integer") := by
            simpa using other
          refine iff_of_false ?_ apart
          split
          · nofun
          · split <;> nofun
      simpa using named

namespace InputKind

theorem number_iff (raw : String) :
    (∃ value, readNumber? raw = some value) ↔ ∃ double, readNumberText? raw = some (.finite double) := by
  unfold readNumber?
  cases whole : readSigned? (Text.trimChars raw.toList) with
  | some value =>
      have read := signed_integer_read _ value whole
      exact iff_of_true ⟨_, rfl⟩ read
  | none =>
      cases readNumberText? raw with
      | none => simp
      | some value => cases value <;> simp [Extended.finite?]

theorem coerces_iff (kind : InputKind) (raw : String) :
    (∃ value, kind.coerce raw = .ok value) ↔
      kind.check (string raw) = .ok () ∧ ¬(kind = .number ∧ Nonfinite raw) := by
  cases kind with
  | number =>
      have coerced : (∃ value, coerce .number raw = .ok value) ↔ ∃ value, readNumber? raw = some value := by
        unfold coerce
        cases readNumber? raw <;> simp
      rw [coerced, number_iff, check, Nonfinite]
      cases readNumberText? raw with
      | none => simp
      | some value => cases value <;> simp [Extended.finite?]
  | truth =>
      rw [coerce, check]
      cases readTruthText? raw <;> simp
  | plainText declared => simp [coerce, check]
  | anything => simp [coerce, check]

def isValue (kind : InputKind) (value : Json) : Bool :=
  match kind with
  | number => value.isNumber
  | truth => value.isBool
  | _ => value.string?.isSome

theorem coerced_value (kind : InputKind) (raw : String) (value : Json)
    (coerced : kind.coerce raw = .ok value) : kind.isValue value = true := by
  cases kind with
  | number =>
      rw [coerce] at coerced
      split at coerced
      · rename_i found read
        cases coerced
        rw [readNumber?] at read
        split at read
        · cases read
          rfl
        · obtain ⟨double, _, rfl⟩ := Option.map_eq_some_iff.mp read
          rfl
      · cases coerced
  | truth =>
      rw [coerce] at coerced
      split at coerced
      · cases coerced
        rfl
      · cases coerced
  | plainText _ | anything =>
      cases coerced
      rfl

theorem value_accepted (kind : InputKind) (value : Json) (proper : kind.isValue value = true) :
    kind.check value = .ok () := by
  cases kind with
  | number =>
      cases value with
      | integer _ | float _ => rfl
      | _ => cases proper
  | truth =>
      cases value with
      | bool _ => rfl
      | _ => cases proper
  | plainText _ =>
      cases value with
      | string _ => rfl
      | _ => cases proper
  | anything => rfl

theorem value_somewhat (kind : InputKind) (value : Json) (proper : kind.isValue value = true) :
    value.isNull = false := by
  cases value with
  | null => cases kind <;> cases proper
  | _ => rfl

theorem signed_fits_iff (value : Int) (fits : fitsInteger value = true) :
    fitsSigned value = true ↔ value < 2 ^ 63 := by
  simp only [fitsInteger, Bool.and_eq_true, decide_eq_true_iff] at fits
  simp only [fitsSigned, Bool.and_eq_true, decide_eq_true_iff]
  simp only [twoTo, Nat.pow_eq] at fits ⊢
  omega

theorem short_number_read (text : String) (value : Int) (fits : fitsInteger value = true)
    (spells : Spells text value) (short : value < 2 ^ 63) :
    readNumber? text = some (integer value) := by
  have read : readSigned? (Text.trimChars text.toList) = some value := by
    rw [spelled_trimmed text value spells, readSigned?, whole_integer_read, Option.filter_some,
      if_pos ((signed_fits_iff value fits).mpr short)]
  rw [readNumber?, read]

theorem long_number_read (text : String) (value : Int) (fits : fitsInteger value = true)
    (spells : Spells text value) (long : 2 ^ 63 ≤ value) :
    readNumber? text = some (float (Double.ofInt value)) := by
  have beyond : ¬fitsSigned value = true := fun signed =>
    absurd ((signed_fits_iff value fits).mp signed) (Int.not_lt.mpr long)
  have unread : readSigned? (Text.trimChars text.toList) = none := by
    rw [spelled_trimmed text value spells, readSigned?, whole_integer_read, Option.filter_some,
      if_neg beyond]
  have rounded : readNumberText? text = some (.finite (Double.ofInt value)) := by
    rw [readNumberText?, spelled_trimmed text value spells, whole_read value fits]
  rw [readNumber?, unread, rounded]
  rfl

end InputKind

-- From 2⁶³ on a whole number is rounded to a double where it is given as text, but not where it is a
-- literal of an input document.
theorem whole_inputs_coerced (parameter : Parameter) (numeric : parameter.IsNumeric) (value : Int)
    (low : -2 ^ 63 ≤ value) (high : value < 2 ^ 64) (text : String) (spells : Spells text value) :
    (coerceInput (some parameter) text = .ok (integer value) ↔ value < 2 ^ 63) ∧
      (2 ^ 63 ≤ value → coerceInput (some parameter) text = .ok (float (Double.ofInt value))) ∧
      ∀ (document : Yaml.Document) (depth : Nat) (path : Yaml.NodePath) (anchor : Option Nat)
        (mark : Yaml.Mark) (left : Nat),
        (document.nodeValue depth path (.scalar ⟨anchor, none, mark⟩ true (Text.ofInt value))).run left =
          .ok (integer value, left) := by
  have fits : fitsInteger value = true := by
    simp only [fitsInteger, Bool.and_eq_true, decide_eq_true_iff]
    simp only [twoTo, Nat.pow_eq]
    omega
  have kind := parameter.numeric_iff.mpr numeric
  have rounded : 2 ^ 63 ≤ value →
      coerceInput (some parameter) text = .ok (float (Double.ofInt value)) := fun long => by
    rw [coerceInput, kind, InputKind.coerce, InputKind.long_number_read text value fits spells long]
  refine ⟨⟨fun exact => ?_, fun short => ?_⟩, rounded, fun document depth path anchor mark left =>
    Yaml.whole_literal_value document depth path anchor mark value fits left⟩
  · by_contra long
    rw [rounded (Int.not_lt.mp long)] at exact
    cases exact
  · rw [coerceInput, kind, InputKind.coerce, InputKind.short_number_read text value fits spells short]

def cardNumber : Parameter := ⟨some "Integer", true, none, none, none⟩

theorem card_number_numeric : cardNumber.IsNumeric := ⟨"Integer", rfl, .inr rfl⟩

theorem whole_inputs_coerced_card :
    cardNumber.IsNumeric ∧ Spells " 9223372036854775807\n" 9223372036854775807 ∧
      coerceInput (some cardNumber) " 9223372036854775807\n" =
        .ok (integer 9223372036854775807) := by
  have spells : Spells " 9223372036854775807\n" 9223372036854775807 :=
    ⟨[' '], ['\n'], by simp [Text.isBlank], by decide⟩
  exact ⟨card_number_numeric, spells,
    (whole_inputs_coerced cardNumber card_number_numeric _ (by decide) (by decide) _ spells).1.mpr
      (by decide)⟩

theorem long_card_number_rounded :
    cardNumber.IsNumeric ∧ fitsInteger 9223372036854775809 = true ∧
      Spells "9223372036854775809" 9223372036854775809 ∧
      coerceInput (some cardNumber) "9223372036854775809" ≠ .ok (integer 9223372036854775809) := by
  have spells : Spells "9223372036854775809" 9223372036854775809 := ⟨[], [], by simp, by decide⟩
  refine ⟨card_number_numeric, by decide, spells, ?_⟩
  rw [coerceInput, cardNumber.numeric_iff.mpr card_number_numeric, InputKind.coerce,
    InputKind.long_number_read _ _ (by decide) spells (by decide)]
  intro same
  cases same

end BrowserFlow
