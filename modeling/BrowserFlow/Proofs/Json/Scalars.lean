import BrowserFlow.Proofs.Json.Numeral
/-! Numbers and strings that were printed are read again: a number that is read from its own text also with
more behind it that does not go on with the number, and every string, whatever stands behind it. Whole
numbers of 64 bits are read from their own texts. -/
set_option autoImplicit false

namespace BrowserFlow.Json

open Number Text

mutual

def numbers (value : Json) : List Json :=
  match value with
  | integer whole => [integer whole]
  | float double => [float double]
  | array items => itemNumbers items
  | object entries => entryNumbers entries
  | _ => []
termination_by structural value

def itemNumbers (items : List Json) : List Json :=
  match items with
  | [] => []
  | item :: rest => numbers item ++ itemNumbers rest
termination_by structural items

def entryNumbers (entries : List (String × Json)) : List Json :=
  match entries with
  | [] => []
  | (_, value) :: rest => numbers value ++ entryNumbers rest
termination_by structural entries

end

theorem item_numbers_iff (items : List Json) (number : Json) :
    number ∈ itemNumbers items ↔ ∃ item ∈ items, number ∈ item.numbers := by
  induction items with
  | nil => simp [itemNumbers]
  | cons item rest ih => rw [itemNumbers, List.mem_append, ih, List.exists_mem_cons_iff]

theorem entry_numbers_iff (entries : List (String × Json)) (number : Json) :
    number ∈ entryNumbers entries ↔ ∃ entry ∈ entries, number ∈ entry.2.numbers := by
  induction entries with
  | nil => simp [entryNumbers]
  | cons entry rest ih => rw [entryNumbers, List.mem_append, ih, List.exists_mem_cons_iff]

-- A number that is read from its own text.
def Kept (number : Json) : Prop :=
  read number.compact = .ok number

theorem kept_well_formed (number : Json) (kept : Kept number) : number.wellFormed = true :=
  read_well_formed number.compact number kept

theorem skip_space_none (chars : List Char) (solid : ∀ c ∈ chars.head?, isSpace c = false) :
    skipSpace chars = chars := by
  cases chars with
  | nil => rfl
  | cons c rest => simp [skipSpace, solid c rfl]

theorem numeral_solid (c : Char) (numeral : isNumeral c = true) :
    isSpace c = false ∧ c ≠ '[' ∧ c ≠ '\x7b' := by
  refine ⟨?_, ?_, ?_⟩
  · cases space : isSpace c with
    | false => rfl
    | true =>
        simp only [isSpace, Bool.or_eq_true, beq_iff_eq] at space
        rcases space with ((rfl | rfl) | rfl) | rfl <;> cases numeral
  · rintro rfl
    cases numeral
  · rintro rfl
    cases numeral

namespace Written

theorem of_chars_scalar (fuel level : Nat) (chars : List Char)
    (plain : ∀ c ∈ chars.head?, isSpace c = false ∧ c ≠ '[' ∧ c ≠ '\x7b') :
    ofChars (fuel + 1) level chars = ofScalar chars := by
  have solid := skip_space_none chars fun c head => (plain c head).1
  rw [ofChars, solid]
  split
  · exact absurd rfl (plain _ rfl).2.1
  · exact absurd rfl (plain _ rfl).2.2
  · rfl

theorem of_scalar_minus (tail : List Char) :
    ofScalar ('-' :: tail) = number ('-' :: tail) true tail := rfl

theorem of_scalar_digit (c : Char) (tail : List Char) (digit : isDigit c = true) :
    ofScalar (c :: tail) = number (c :: tail) false (c :: tail) := by
  unfold ofScalar
  split
  case h_7 first others _ _ _ _ _ same =>
      cases same
      rw [if_pos digit]
  all_goals rename_i same; cases same
  all_goals cases digit

theorem of_scalar_other (c : Char) (tail : List Char) (numeral : isNumeral c = true)
    (minus : c ≠ '-') (digit : isDigit c = false) :
    ofScalar (c :: tail) = missing (.ahead .expectedValue (c :: tail)) := by
  unfold ofScalar
  split
  case h_7 first others _ _ _ _ _ same =>
      cases same
      rw [if_neg (by simp [digit])]
  case h_5 same => exact absurd (List.cons.inj same).1 minus
  all_goals rename_i same; cases same
  all_goals cases numeral

structure ReadNumber (number : Json) (chars : List Char) : Prop where
  reads : ∃ negative digits numeral, takeNumeral negative digits = .ok (numeral, []) ∧
    numeral.value [] = .ok number ∧
    ∀ rest, ofScalar (chars ++ rest) = Written.number (chars ++ rest) negative (digits ++ rest)
  begins : ∃ c tail, chars = c :: tail ∧ isNumeral c = true

theorem number_left (number value : Json) (start digits : List Char) (negative : Bool)
    (numerals : Numerals digits)
    (found : (Written.number start negative digits).contents = .ok value)
    (ended : (Written.number start negative digits).checkEnd = .ok ())
    (same : value.merged = number) :
    ∃ numeral, takeNumeral negative digits = .ok (numeral, []) ∧ numeral.value [] = .ok number := by
  unfold Written.number at found ended
  cases taken : takeNumeral negative digits with
  | error error =>
      rw [taken] at found
      cases found
  | ok pair =>
      rcases pair with ⟨numeral, left⟩
      rw [taken] at found ended
      -- What is left of the digits is no blank, and so it can only be nothing.
      have solid : skipSpace left = left := skip_space_none left fun c head =>
        (numeral_solid c (numerals c ((take_numeral_left _ _ _ _ taken).subset
          (List.mem_of_mem_head? head)))).1
      have nothing : left = [] := by
        cases left with
        | nil => rfl
        | cons c rest =>
            simp only [checkEnd, passed, bind, Except.bind, solid] at ended
            cases ended
      subst nothing
      have proper := (numeral_plain numeral [] value found).proper
      rw [merged_well_formed value proper] at same
      subst same
      exact ⟨numeral, rfl, found⟩

theorem number_read (number : Json) (numeric : number.isNumber = true) (kept : Kept number) :
    ReadNumber number number.compact.toList := by
  have numerals := number_numerals number numeric
  simp only [Kept, read, bind_ok_iff] at kept
  obtain ⟨value, found, ⟨⟩, ended, same⟩ := kept
  simp only [pure, Except.pure, Except.ok.injEq] at same
  unfold ofText within at found ended
  generalize number.compact.toList = chars at numerals found ended ⊢
  cases chars with
  | nil => cases found
  | cons c tail =>
      have first := numerals c List.mem_cons_self
      have scalar := of_chars_scalar (2 * (c :: tail).length + 1) 0 (c :: tail) fun other head => by
        cases head
        exact numeral_solid c first
      rw [scalar] at found ended
      refine ⟨?_, c, tail, rfl, first⟩
      by_cases minus : c = '-'
      · subst minus
        obtain ⟨numeral, taken, read⟩ := number_left number value _ tail true
          (numerals.part fun other member => List.mem_cons_of_mem _ member) found ended same
        exact ⟨true, tail, numeral, taken, read, fun rest => of_scalar_minus (tail ++ rest)⟩
      · cases digit : isDigit c with
        | false =>
            rw [of_scalar_other c tail first minus digit] at found
            cases found
        | true =>
            rw [of_scalar_digit c tail digit] at found ended
            obtain ⟨numeral, taken, read⟩ := number_left number value _ (c :: tail) false numerals
              found ended same
            exact ⟨false, c :: tail, numeral, taken, read,
              fun rest => of_scalar_digit c (tail ++ rest) digit⟩

end Written

theorem read_scalar (text : String) (value : Json)
    (written : Written.ofText text = .scalar text.toList (.ok value) (.ok [])) :
    read text = .ok value.merged := by
  rw [read, written]
  rfl

theorem integer_kept (whole : Int) (fits : fitsInteger whole = true) : Kept (integer whole) := by
  refine read_scalar _ (integer whole) ?_
  cases whole with
  | ofNat n =>
      have chars : (integer (.ofNat n)).compact.toList = decimalDigits n := String.toList_ofList
      have valued := digits_numeral_value false n n rfl fits nofun
      rw [Written.ofText, Written.within, chars]
      have taken := take_numeral_digits false n
      have digits := digits_digit n
      generalize decimalDigits n = all at *
      cases all with
      | nil => cases taken
      | cons c tail =>
          have digit := digits c List.mem_cons_self
          rw [Written.of_chars_scalar _ 0 (c :: tail) fun other head => by
              cases head
              exact numeral_solid c (by simp [isNumeral, digit]),
            Written.of_scalar_digit c tail digit, Written.number, taken]
          simp only [valued]
          rfl
  | negSucc n =>
      have chars : (integer (.negSucc n)).compact.toList = '-' :: decimalDigits (n + 1) := by
        have digits : (Text.ofNat (n + 1)).toList = decimalDigits (n + 1) := String.toList_ofList
        rw [← digits]
        exact String.toList_append
      have valued := digits_numeral_value true (n + 1) (.negSucc n) rfl fits fun _ => Nat.succ_ne_zero n
      rw [Written.ofText, Written.within, chars, Written.of_chars_scalar _ 0 _ fun other head => by
          cases head
          decide,
        Written.of_scalar_minus, Written.number, take_numeral_digits]
      simp only [valued]

def float? : Json → Option Number.Double
  | float value => some value
  | _ => none

theorem float_kept (value : Number.Double)
    (reread : (read (float value).compact).toOption.bind float? = some value) : Kept (float value) := by
  unfold Kept
  cases found : read (float value).compact with
  | error error => simp [found, Except.toOption] at reread
  | ok other => cases other <;> simp_all [Except.toOption, float?]

mutual

theorem numbers_numeric (value : Json) : ∀ number ∈ value.numbers, number.isNumber = true := by
  match value with
  | null => simp [numbers]
  | bool _ => simp [numbers]
  | integer _ => simp [numbers, isNumber]
  | float _ => simp [numbers, isNumber]
  | string _ => simp [numbers]
  | array items => exact item_numbers_numeric items
  | object entries => exact entry_numbers_numeric entries
termination_by structural value

theorem item_numbers_numeric (items : List Json) :
    ∀ number ∈ itemNumbers items, number.isNumber = true := by
  match items with
  | [] => simp [itemNumbers]
  | item :: rest =>
      rw [itemNumbers, List.forall_mem_append]
      exact ⟨numbers_numeric item, item_numbers_numeric rest⟩
termination_by structural items

theorem entry_numbers_numeric (entries : List (String × Json)) :
    ∀ number ∈ entryNumbers entries, number.isNumber = true := by
  match entries with
  | [] => simp [entryNumbers]
  | (key, value) :: rest =>
      rw [entryNumbers, List.forall_mem_append]
      exact ⟨numbers_numeric value, entry_numbers_numeric rest⟩
termination_by structural entries

end

theorem numbers_kept (value : Json)
    (sized : ∀ whole, integer whole ∈ value.numbers → fitsInteger whole = true)
    (doubles : ∀ double, float double ∈ value.numbers → Kept (float double)) :
    ∀ number ∈ value.numbers, Kept number := by
  intro number member
  have numeric := numbers_numeric value number member
  cases number with
  | integer whole => exact integer_kept whole (sized whole member)
  | float double => exact doubles double member
  | _ => cases numeric

mutual

theorem numbers_well_formed (value : Json) (proper : value.wellFormed = true) :
    ∀ number ∈ value.numbers, number.wellFormed = true := by
  match value with
  | null => simp [numbers]
  | bool _ => simp [numbers]
  | string _ => simp [numbers]
  | integer _ => simpa [numbers] using proper
  | float _ => simp [numbers, wellFormed]
  | array items => exact item_numbers_well_formed items ((array_well_formed_iff items).mp proper)
  | object entries =>
      exact entry_numbers_well_formed entries ((object_well_formed_iff entries).mp proper).2
termination_by structural value

theorem item_numbers_well_formed (items : List Json)
    (proper : ∀ item ∈ items, item.wellFormed = true) :
    ∀ number ∈ itemNumbers items, number.wellFormed = true := by
  match items with
  | [] => simp [itemNumbers]
  | item :: rest =>
      rw [List.forall_mem_cons] at proper
      rw [itemNumbers, List.forall_mem_append]
      exact ⟨numbers_well_formed item proper.1, item_numbers_well_formed rest proper.2⟩
termination_by structural items

theorem entry_numbers_well_formed (entries : List (String × Json))
    (proper : ∀ entry ∈ entries, entry.2.wellFormed = true) :
    ∀ number ∈ entryNumbers entries, number.wellFormed = true := by
  match entries with
  | [] => simp [entryNumbers]
  | (key, value) :: rest =>
      rw [List.forall_mem_cons] at proper
      rw [entryNumbers, List.forall_mem_append]
      exact ⟨numbers_well_formed value proper.1, entry_numbers_well_formed rest proper.2⟩
termination_by structural entries

end

theorem hex_digit_value (n : Nat) (small : n < 16) : hexValue? (hexDigit n) = some n := by
  have all : ∀ n : Fin 16, hexValue? (hexDigit n) = some n.val := by decide
  exact all ⟨n, small⟩

theorem read_hex_escape (c : Char) (small : c.toNat < 32) (more : List Char) :
    readCodePoint ('0' :: '0' :: hexDigit (c.toNat / 16) :: hexDigit (c.toNat % 16) :: more) =
      .ok (c, more) := by
  have high := hex_digit_value (c.toNat / 16) (by omega)
  have low := hex_digit_value (c.toNat % 16) (by omega)
  have zero : hexValue? '0' = some 0 := rfl
  have hex : readHex ('0' :: '0' :: hexDigit (c.toNat / 16) :: hexDigit (c.toNat % 16) :: more) =
      .ok (c.toNat, more) := by
    have whole : c.toNat / 16 * 16 + c.toNat % 16 = c.toNat := by omega
    simp [readHex, zero, high, low, whole]
  have notLow : isLowSurrogate c.toNat = false := by
    simp only [isLowSurrogate, Bool.and_eq_false_iff, decide_eq_false_iff_not]
    omega
  have notHigh : isHighSurrogate c.toNat = false := by
    simp only [isHighSurrogate, Bool.and_eq_false_iff, decide_eq_false_iff_not]
    omega
  simp [readCodePoint, hex, bind, Except.bind, notLow, notHigh]

theorem escape_read (c : Char) :
    (escapeChar c = [c] ∧ c ≠ '\x22' ∧ c ≠ '\\' ∧ ¬c.toNat < 32) ∨
      ∃ tail, escapeChar c = '\\' :: tail ∧ ∀ more, readEscape (tail ++ more) = .ok (c, more) := by
  unfold escapeChar
  split
  · rename_i same
    exact Or.inr ⟨_, rfl, fun more => by rw [same]; rfl⟩
  split
  · rename_i same
    exact Or.inr ⟨_, rfl, fun more => by rw [same]; rfl⟩
  split
  · rename_i same
    exact Or.inr ⟨_, rfl, fun more => by rw [same]; rfl⟩
  split
  · rename_i same
    exact Or.inr ⟨_, rfl, fun more => by rw [same]; rfl⟩
  split
  · rename_i same
    exact Or.inr ⟨_, rfl, fun more => by rw [same]; rfl⟩
  split
  · rename_i same
    exact Or.inr ⟨_, rfl, fun more => by rw [same]; rfl⟩
  split
  · rename_i same
    exact Or.inr ⟨_, rfl, fun more => by rw [same]; rfl⟩
  split
  · rename_i small
    exact Or.inr ⟨_, rfl, fun more => read_hex_escape c small more⟩
  · rename_i quote backslash _ _ _ _ _ printable
    exact Or.inl ⟨rfl, quote, backslash, printable⟩

theorem read_chars_escaped (text rest : List Char) (fuel : Nat)
    (enough : (text.flatMap escapeChar).length < fuel) :
    readChars fuel (text.flatMap escapeChar ++ '\x22' :: rest) = .ok (text, rest) := by
  induction text generalizing fuel with
  | nil =>
      obtain ⟨fuel, rfl⟩ := Nat.exists_eq_succ_of_ne_zero (Nat.ne_of_gt enough)
      rfl
  | cons c others ih =>
      obtain ⟨fuel, rfl⟩ := Nat.exists_eq_succ_of_ne_zero (Nat.ne_of_gt (Nat.zero_lt_of_lt enough))
      rw [List.flatMap_cons, List.length_append] at enough
      rw [List.flatMap_cons, List.append_assoc]
      rcases escape_read c with ⟨plain, quote, backslash, printable⟩ | ⟨tail, escaped, reads⟩
      · rw [plain, List.length_singleton] at enough
        have later := ih fuel (by omega)
        rw [plain, List.singleton_append, readChars, if_neg quote, if_neg backslash, if_neg printable,
          later]
        rfl
      · rw [escaped, List.length_cons] at enough
        have later := ih fuel (by omega)
        rw [escaped, List.cons_append, readChars, if_neg (by decide), if_pos rfl, reads]
        simp only [bind, Except.bind, later]

theorem read_string_escaped (text : String) (rest : List Char) :
    readString (text.toList.flatMap escapeChar ++ '\x22' :: rest) = .ok (text, rest) := by
  have read := read_chars_escaped text.toList rest
    ((text.toList.flatMap escapeChar ++ '\x22' :: rest).length + 1) (by
      rw [List.length_append]
      omega)
  simp only [readString, bind, Except.bind, read, String.ofList_toList]

theorem quote_chars (text : String) (rest : List Char) :
    (quote text).toList ++ rest = '\x22' :: (text.toList.flatMap escapeChar ++ '\x22' :: rest) := by
  rw [quote, String.toList_ofList]
  simp

theorem read_word_written (value : Json) (letters rest : List Char) :
    readWord value letters (letters ++ rest) = .ok (value, rest) := by
  induction letters with
  | nil => rfl
  | cons letter others ih => rw [List.cons_append, readWord, if_pos rfl, ih]

end BrowserFlow.Json
