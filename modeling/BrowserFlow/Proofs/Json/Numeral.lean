import Mathlib.Data.List.TakeWhile
import BrowserFlow.Json.Writer
import BrowserFlow.Proofs.Json.Reading
import BrowserFlow.Proofs.Text.Pieces
/-! Numbers in the midst of a text. A number that its own text stands for is read from that text wherever it
stands, as long as what follows does not go on with the number. -/
set_option autoImplicit false

namespace BrowserFlow.Json

open Number Text

def EndsNumber (rest : List Char) : Prop :=
  ∀ c ∈ rest.head?, isDigit c = false ∧ c ≠ '.' ∧ c ≠ 'e' ∧ c ≠ 'E'

variable (rest : List Char) (ends : EndsNumber rest)

include ends

theorem ends_digits : ∀ c ∈ rest.head?, isDigit c = false :=
  fun c head => (ends c head).1

omit ends in
theorem split_sign_before (c : Char) (tail : List Char) :
    splitSign (c :: tail ++ rest) =
      ((splitSign (c :: tail)).1, (splitSign (c :: tail)).2 ++ rest) := by
  by_cases minus : c = '-'
  · subst minus
    rfl
  · by_cases plus : c = '+'
    · subst plus
      rfl
    · have unsigned : ∀ others, splitSign (c :: others) = (false, c :: others) := by
        intro others
        unfold splitSign
        split <;> simp_all
      rw [List.cons_append, unsigned, unsigned]
      rfl

theorem take_exponent_before (chars left : List Char) (exponent : Bool × List Char)
    (taken : takeExponent chars = .ok (exponent, left)) :
    takeExponent (chars ++ rest) = .ok (exponent, left ++ rest) := by
  cases chars with
  | nil => cases taken
  | cons c tail =>
      unfold takeExponent at taken ⊢
      rw [split_sign_before]
      generalize splitSign (c :: tail) = signed at taken ⊢
      rcases signed with ⟨negative, digits⟩
      have whole := take_while_before isDigit digits rest (ends_digits rest ends)
      have behind := drop_while_before isDigit digits rest (ends_digits rest ends)
      cases digits with
      | nil => cases taken
      | cons first others =>
          dsimp only at taken whole behind ⊢
          rw [List.cons_append] at whole behind ⊢
          simp only [whole, behind]
          split at taken
          · rename_i digit
            cases taken
            rw [if_pos digit]
          · cases taken

theorem take_exponent_maybe_before (chars left : List Char) (exponent : Option (Bool × List Char))
    (taken : takeExponent? chars = .ok (exponent, left)) :
    takeExponent? (chars ++ rest) = .ok (exponent, left ++ rest) := by
  cases chars with
  | nil =>
      cases taken
      rw [List.nil_append]
      cases rest with
      | nil => rfl
      | cons c tail =>
          obtain ⟨_, _, small, large⟩ := ends c rfl
          simp [takeExponent?, small, large]
  | cons c tail =>
      rw [takeExponent?] at taken
      rw [List.cons_append, takeExponent?]
      split at taken
      · rename_i mark
        obtain ⟨⟨found, after⟩, exponentTaken, same⟩ := (map_ok_iff _ _ _).mp taken
        cases same
        rw [if_pos mark, take_exponent_before rest ends tail left found exponentTaken]
        rfl
      · rename_i plain
        cases taken
        rw [if_neg plain]
        rfl

theorem take_fraction_before (chars left digits : List Char)
    (taken : takeFraction chars = .ok (digits, left)) :
    takeFraction (chars ++ rest) = .ok (digits, left ++ rest) := by
  unfold takeFraction at taken ⊢
  rw [take_while_before isDigit _ rest (ends_digits rest ends),
    drop_while_before isDigit _ rest (ends_digits rest ends)]
  cases found : chars.takeWhile isDigit with
  | nil =>
      rw [found] at taken
      cases others : chars.dropWhile isDigit <;> simp [others] at taken
  | cons c tail =>
      rw [found] at taken
      cases taken
      rfl

theorem take_numeral_before (negative : Bool) (chars left : List Char) (numeral : Numeral)
    (taken : takeNumeral negative chars = .ok (numeral, left)) :
    takeNumeral negative (chars ++ rest) = .ok (numeral, left ++ rest) := by
  cases chars with
  | nil => cases taken
  | cons c tail =>
      have digits := ends_digits rest ends
      have next : (tail ++ rest).head?.any isDigit = tail.head?.any isDigit := by
        cases tail with
        | nil =>
            cases rest with
            | nil => rfl
            | cons first others => simp [digits first rfl]
        | cons first others => rfl
      have whole := take_while_before isDigit (c :: tail) rest digits
      have behind := drop_while_before isDigit (c :: tail) rest digits
      rw [List.cons_append] at whole behind ⊢
      simp only [takeNumeral, next, whole, behind] at taken ⊢
      split at taken
      · cases taken
      · rename_i digit
        rw [if_neg digit]
        split at taken
        · cases taken
        · rename_i zero
          rw [if_neg zero]
          cases after : (c :: tail).dropWhile isDigit with
          | nil =>
              -- The number ends with its whole part, and what follows has no point.
              rw [after] at taken
              obtain ⟨⟨exponent, last⟩, exponentTaken, same⟩ := (bind_ok_iff _ _ _).mp taken
              cases same
              have exponentBefore := take_exponent_maybe_before rest ends [] last exponent exponentTaken
              rw [List.nil_append] at exponentBefore ⊢
              split
              · rename_i point others
                exact absurd rfl (ends '.' rfl).2.1
              · rw [exponentBefore]
                rfl
          | cons mark others =>
              rw [after] at taken
              by_cases point : mark = '.'
              · subst point
                obtain ⟨⟨fraction, more⟩, fractionTaken, taken⟩ := (bind_ok_iff _ _ _).mp taken
                obtain ⟨⟨exponent, last⟩, exponentTaken, same⟩ := (bind_ok_iff _ _ _).mp taken
                cases same
                have fractionBefore := take_fraction_before rest ends others more fraction fractionTaken
                have exponentBefore := take_exponent_maybe_before rest ends more last exponent
                  exponentTaken
                simp only [List.cons_append, fractionBefore, bind, Except.bind, exponentBefore]
              · split at taken
                · rename_i same
                  exact absurd (List.cons.inj same).1 point
                · obtain ⟨⟨exponent, last⟩, exponentTaken, same⟩ := (bind_ok_iff _ _ _).mp taken
                  cases same
                  have exponentBefore := take_exponent_maybe_before rest ends (mark :: others) last
                    exponent exponentTaken
                  rw [List.cons_append] at exponentBefore ⊢
                  split
                  · rename_i same
                    exact absurd (List.cons.inj same).1 point
                  · rw [exponentBefore]
                    rfl

omit ends

-- A number that can be read has the same value whatever follows it; only faults speak of what does.
theorem numeral_value_before (numeral : Numeral) (left : List Char) (value : Json)
    (read : numeral.value left = .ok value) : numeral.value rest = .ok value := by
  have double : numeral.double left = .ok value → numeral.double rest = .ok value := by
    unfold Numeral.double
    intro read
    split at read
    · exact read
    · cases read
  have whole : ∀ (signed : Int) (plain : Bool),
      (if fitsInteger signed && plain then .ok (integer signed) else numeral.double left) =
        .ok value →
      (if fitsInteger signed && plain then .ok (integer signed) else numeral.double rest) =
        .ok value := by
    intro signed plain read
    split at read
    · rename_i fits
      rw [if_pos fits]
      exact read
    · rename_i beyond
      rw [if_neg beyond]
      exact double read
  unfold Numeral.value at read ⊢
  split at read
  · rename_i undivided
    rw [if_pos undivided]
    exact whole _ _ read
  · rename_i divided
    rw [if_neg divided]
    exact double read

theorem take_exponent_left (chars left : List Char) (exponent : Option (Bool × List Char))
    (taken : takeExponent? chars = .ok (exponent, left)) : left <:+ chars := by
  cases chars with
  | nil =>
      cases taken
      exact List.suffix_refl _
  | cons mark tail =>
      rw [takeExponent?] at taken
      split at taken
      · obtain ⟨⟨found, after⟩, exponentTaken, same⟩ := (map_ok_iff _ _ _).mp taken
        cases same
        have signed : (splitSign tail).2 <:+ tail := by
          unfold splitSign
          split
          · exact List.suffix_cons _ _
          · exact List.suffix_cons _ _
          · exact List.suffix_refl _
        unfold takeExponent at exponentTaken
        generalize splitSign tail = sign at exponentTaken signed
        rcases sign with ⟨negative, digits⟩
        cases digits with
        | nil => cases exponentTaken
        | cons first others =>
            dsimp only at exponentTaken signed
            split at exponentTaken
            · cases exponentTaken
              exact ((List.dropWhile_suffix _).trans signed).trans (List.suffix_cons _ _)
            · cases exponentTaken
      · cases taken
        exact List.suffix_refl _

theorem take_fraction_left (chars left digits : List Char)
    (taken : takeFraction chars = .ok (digits, left)) : left <:+ chars := by
  have behind := List.dropWhile_suffix (l := chars) isDigit
  unfold takeFraction at taken
  split at taken
  · cases taken
  · cases taken
  · cases taken
    exact behind

theorem take_numeral_left (negative : Bool) (chars left : List Char) (numeral : Numeral)
    (taken : takeNumeral negative chars = .ok (numeral, left)) : left <:+ chars := by
  cases chars with
  | nil => cases taken
  | cons c tail =>
      have behind := List.dropWhile_suffix (l := c :: tail) isDigit
      simp only [takeNumeral] at taken
      split at taken
      · cases taken
      · split at taken
        · cases taken
        · generalize (c :: tail).dropWhile isDigit = after at taken behind
          split at taken
          · rename_i others
            obtain ⟨⟨fraction, more⟩, fractionTaken, taken⟩ := (bind_ok_iff _ _ _).mp taken
            obtain ⟨⟨exponent, last⟩, exponentTaken, same⟩ := (bind_ok_iff _ _ _).mp taken
            cases same
            exact (((take_exponent_left _ _ _ exponentTaken).trans
              (take_fraction_left _ _ _ fractionTaken)).trans (List.suffix_cons _ _)).trans behind
          · obtain ⟨⟨exponent, last⟩, exponentTaken, same⟩ := (bind_ok_iff _ _ _).mp taken
            cases same
            exact (take_exponent_left _ _ _ exponentTaken).trans behind

def isNumeral (c : Char) : Bool :=
  isDigit c || c == '.' || c == 'e' || c == '+' || c == '-'

def Numerals (chars : List Char) : Prop :=
  ∀ c ∈ chars, isNumeral c = true

theorem Numerals.append {left right : List Char} (first : Numerals left) (second : Numerals right) :
    Numerals (left ++ right) := by
  intro c member
  exact (List.mem_append.mp member).elim (first c) (second c)

theorem Numerals.part {chars part : List Char} (all : Numerals chars)
    (inside : ∀ c ∈ part, c ∈ chars) : Numerals part :=
  fun c member => all c (inside c member)

theorem numerals_of (chars : List Char) (all : chars.all isNumeral = true) : Numerals chars :=
  List.all_eq_true.mp all

theorem digits_numerals (n : Nat) : Numerals (Nat.toDigits 10 n) := by
  intro c member
  have digit := Nat.isDigit_of_mem_toDigits (by decide) (Nat.le_refl _) member
  have same : isDigit c = c.isDigit := rfl
  simp [isNumeral, same, digit]

theorem zeros_numerals (count : Nat) : Numerals (zeros count) := by
  intro c member
  rw [List.eq_of_mem_replicate member]
  rfl

theorem significant_numerals (digits : Nat) : Numerals (significantDigits digits) := by
  refine (digits_numerals digits).part fun c member => ?_
  rw [significantDigits, List.mem_reverse] at member
  exact List.mem_reverse.mp ((List.dropWhile_suffix _).subset member)

theorem positional_numerals (layout : Layout) (mark : Numerals layout.wholeMark.toList)
    (digits : List Char) (all : Numerals digits) (power : Int) :
    Numerals (positionalText layout digits power).toList := by
  cases power with
  | ofNat power =>
      have whole : Numerals (digits.take (power + 1) ++ zeros (power + 1 - digits.length)) :=
        (all.part fun c member => List.mem_of_mem_take member).append (zeros_numerals _)
      simp only [positionalText]
      split
      · rw [String.toList_append, String.toList_ofList]
        exact whole.append mark
      · rw [String.toList_ofList]
        refine whole.append (Numerals.append (numerals_of ['.'] rfl) ?_)
        exact all.part fun c member => List.mem_of_mem_drop member
  | negSucc power =>
      rw [positionalText, String.toList_ofList]
      exact (numerals_of ['0', '.'] rfl).append ((zeros_numerals power).append all)

theorem exponent_numerals (digits : List Char) (all : Numerals digits) (power : Int) :
    Numerals (exponentText digits power).toList := by
  have tail : Numerals ((if power < 0 then "e-" else "e+") ++
      String.ofList (Nat.toDigits 10 power.natAbs)).toList := by
    rw [String.toList_append, String.toList_ofList]
    refine Numerals.append ?_ (digits_numerals _)
    split
    · exact numerals_of _ rfl
    · exact numerals_of _ rfl
  unfold exponentText
  dsimp only
  split
  · exact tail
  · rw [String.toList_append, String.toList_ofList]
    exact all.append tail
  · rename_i digit others _
    rw [String.toList_append, String.toList_ofList]
    have first : Numerals [digit] := all.part fun c member => by simp_all
    have behind : Numerals ('.' :: others) := (numerals_of ['.'] rfl).append
      (all.part fun c member => List.mem_cons_of_mem _ member)
    exact (first.append behind).append tail

theorem double_numerals (value : Double) : Numerals (value.text documentLayout).toList := by
  have magnitude : Numerals (magnitudeText documentLayout value.units).toList := by
    unfold magnitudeText
    dsimp only
    split
    · exact numerals_of _ rfl
    · split
      · exact positional_numerals documentLayout (numerals_of _ rfl) _ (significant_numerals _) _
      · exact exponent_numerals _ (significant_numerals _) _
  unfold Double.text
  split
  · rw [String.toList_append]
    exact (numerals_of _ rfl).append magnitude
  · exact magnitude

theorem whole_numerals (value : Int) : Numerals (Text.ofInt value).toList := by
  cases value with
  | ofNat n =>
      rw [Text.ofInt, Text.ofNat, String.toList_ofList]
      exact digits_numerals n
  | negSucc n =>
      have digits : (Text.ofNat (n + 1)).toList = Nat.toDigits 10 (n + 1) := String.toList_ofList
      rw [Text.ofInt, String.toList_append, digits]
      exact (numerals_of _ rfl).append (digits_numerals _)

theorem number_numerals (number : Json) (numeric : number.isNumber = true) :
    Numerals number.compact.toList := by
  cases number with
  | integer value => exact whole_numerals value
  | float value => exact double_numerals value
  | _ => cases numeric

theorem digits_value (n : Nat) : digitsValue (decimalDigits n) = n := by
  have read := Nat.ofDigitChars_toDigits (b := 10) (n := n) (by decide) (by decide)
  rw [Nat.ofDigitChars] at read
  simpa [digitsValue, decimalDigits, digitValue, Nat.mul_comm] using read

theorem digits_lead (n : Nat) (tail : List Char) (zero : decimalDigits n = '0' :: tail) : n = 0 := by
  induction n using Nat.strongRecOn generalizing tail with
  | ind n ih =>
      by_cases small : n < 10
      · have single : ∀ n : Fin 10, Nat.digitChar n = '0' → n = 0 := by decide
        rw [decimalDigits, Nat.toDigits_of_lt_base small] at zero
        have same := single ⟨n, small⟩ (List.cons.inj zero).1
        exact congrArg Fin.val same
      · rw [decimalDigits, Nat.toDigits_of_base_le (by decide) (by omega)] at zero
        cases front : Nat.toDigits 10 (n / 10) with
        | nil => exact absurd front Nat.toDigits_ne_nil
        | cons c others =>
            rw [front] at zero
            have less := ih (n / 10) (by omega) others (by
              rw [decimalDigits, front, (List.cons.inj zero).1])
            omega

theorem digits_digit (n : Nat) : ∀ c ∈ decimalDigits n, isDigit c = true :=
  fun _ member => Nat.isDigit_of_mem_toDigits (by decide) (Nat.le_refl _) member

theorem take_numeral_digits (negative : Bool) (n : Nat) :
    takeNumeral negative (decimalDigits n) = .ok (⟨negative, decimalDigits n, [], none⟩, []) := by
  have digits := digits_digit n
  have whole := List.takeWhile_eq_self_iff.mpr digits
  have nothing := List.dropWhile_eq_nil_iff.mpr digits
  cases chars : decimalDigits n with
  | nil => exact absurd chars Nat.toDigits_ne_nil
  | cons c tail =>
      have lead : (c == '0' && tail.head?.any isDigit) = false := by
        rw [Bool.and_eq_false_iff]
        by_cases zero : c = '0'
        · rw [zero] at chars
          rw [digits_lead n tail chars] at chars
          cases chars
          exact Or.inr rfl
        · exact Or.inl (by simpa using zero)
      rw [chars] at digits whole nothing
      rw [takeNumeral, whole, nothing]
      simp only [digits c List.mem_cons_self, lead]
      rfl

theorem digits_numeral_value (negative : Bool) (n : Nat) (whole : Int)
    (signed : (if negative then -(n : Int) else n) = whole) (fits : fitsInteger whole = true)
    (somewhat : negative = true → n ≠ 0) :
    Numeral.value ⟨negative, decimalDigits n, [], none⟩ [] = .ok (integer whole) := by
  have plain : (!(negative && (n : Int) == 0)) = true := by
    cases negative with
    | false => rfl
    | true => simpa using somewhat rfl
  simp only [Numeral.value, digits_value, signed, fits, plain]
  rfl

end BrowserFlow.Json
