import BrowserFlow.Proofs.Json.Scalars
import BrowserFlow.Proofs.Text.Reading
/-! Values written on one line. As long as their numbers have different texts, different values have
different texts, also with more behind them that does not go on with a number. -/
set_option autoImplicit false

namespace BrowserFlow.Json

open Number Text

theorem positional_nonempty (layout : Layout) (digits : List Char) (power : Int) :
    (positionalText layout digits power).toList ≠ [] := by
  intro empty
  have nothing := congrArg List.length empty
  cases power with
  | ofNat power =>
      simp only [positionalText] at nothing
      split at nothing
      · simp only [String.toList_append, String.toList_ofList, List.length_append, List.length_take,
          zeros, List.length_replicate, List.length_nil] at nothing
        omega
      · simp at nothing
  | negSucc power => simp [positionalText] at nothing

theorem exponent_nonempty (digits : List Char) (power : Int) :
    (exponentText digits power).toList ≠ [] := by
  have mark : (if power < 0 then "e-" else "e+").toList ≠ [] := by
    split <;> simp
  unfold exponentText
  dsimp only
  split
  · simp [mark]
  · simp
  · simp

theorem double_nonempty (value : Double) : (value.text documentLayout).toList ≠ [] := by
  have magnitude : (magnitudeText documentLayout value.units).toList ≠ [] := by
    unfold magnitudeText
    dsimp only
    split
    · simp [documentLayout]
    · split
      · exact positional_nonempty documentLayout _ _
      · exact exponent_nonempty _ _
  unfold Double.text
  split
  · simp
  · exact magnitude

theorem whole_nonempty (value : Int) : (Text.ofInt value).toList ≠ [] := by
  cases value with
  | ofNat n =>
      rw [Text.ofInt, Text.ofNat, String.toList_ofList]
      exact Nat.toDigits_ne_nil
  | negSucc n => simp [Text.ofInt]

def SpelledApart (numbers : List Json) : Prop :=
  ∀ one ∈ numbers, ∀ other ∈ numbers, one.compact = other.compact → one = other

-- What a value begins with: any character of a number counts as zero, and `false` begins as `true`.
def mark : Json → Char
  | null => 'n'
  | bool _ => 't'
  | string _ => '\x22'
  | array _ => '['
  | object _ => '\x7b'
  | _ => '0'

def markOf (c : Char) : Char :=
  if isNumeral c then '0' else if c = 'f' then 't' else c

def chars (value : Json) : List Char :=
  value.compact.toList

theorem chars_begin (value : Json) : ∃ c tail, value.chars = c :: tail ∧ markOf c = value.mark := by
  have number : ∀ number : Json, number.isNumber = true → number.chars ≠ [] →
      ∃ c tail, number.chars = c :: tail ∧ markOf c = '0' := by
    intro number numeric nonempty
    obtain ⟨c, tail, split⟩ := List.exists_cons_of_ne_nil nonempty
    have numeral := number_numerals number numeric c (by rw [← chars, split]; exact List.mem_cons_self)
    exact ⟨c, tail, split, by rw [markOf, if_pos numeral]⟩
  cases value with
  | null => exact ⟨'n', _, rfl, by decide⟩
  | bool flag =>
      cases flag with
      | true => exact ⟨'t', _, rfl, by decide⟩
      | false => exact ⟨'f', _, rfl, by decide⟩
  | integer whole => exact number (.integer whole) rfl (whole_nonempty whole)
  | float double => exact number (.float double) rfl (double_nonempty double)
  | string text =>
      refine ⟨'\x22', text.toList.flatMap escapeChar ++ ['\x22'], ?_, rfl⟩
      have quoted := quote_chars text []
      rw [List.append_nil] at quoted
      exact quoted
  | array items =>
      refine ⟨'[', (compactItems items).toList ++ [']'], ?_, rfl⟩
      simp [chars, compact]
  | object entries =>
      refine ⟨'\x7b', (compactEntries entries).toList ++ ['\x7d'], ?_, rfl⟩
      simp [chars, compact]

theorem marks_alike (one other : Json) (rest tail : List Char)
    (same : one.chars ++ rest = other.chars ++ tail) : one.mark = other.mark := by
  obtain ⟨c, after, begins, marked⟩ := chars_begin one
  obtain ⟨d, otherAfter, otherBegins, otherMarked⟩ := chars_begin other
  rw [begins, otherBegins, List.cons_append, List.cons_append] at same
  rw [← marked, ← otherMarked, (List.cons.inj same).1]

theorem mark_number_iff (value : Json) : value.mark = '0' ↔ value.isNumber = true := by
  cases value <;> simp [mark, isNumber]

def marks : List Char :=
  ['n', 't', '\x22', '[', '\x7b', '0']

theorem mark_listed (value : Json) : value.mark ∈ marks := by
  cases value <;> simp [mark, marks]

theorem begins_otherwise (c : Char) (foreign : markOf c ∉ marks) (value : Json)
    (rest tail : List Char) : value.chars ++ rest ≠ c :: tail := by
  intro same
  obtain ⟨first, after, begins, marked⟩ := chars_begin value
  rw [begins, List.cons_append] at same
  apply foreign
  rw [← (List.cons.inj same).1, marked]
  exact mark_listed value

def EndsValue (rest : List Char) : Prop :=
  ∀ c ∈ rest.head?, isNumeral c = false

def entryChars (entry : String × Json) : List Char :=
  (quote entry.1).toList ++ ':' :: entry.2.chars

theorem items_joined (items : List Json) : (compactItems items).toList = joined chars [','] items := by
  induction items with
  | nil => rfl
  | cons item rest ih =>
      cases rest with
      | nil => simp [compactItems, joined, separated, chars]
      | cons next others =>
          simp [compactItems, ih, joined, separated, chars]

theorem entries_joined (entries : List (String × Json)) :
    (compactEntries entries).toList = joined entryChars [','] entries := by
  induction entries with
  | nil => rfl
  | cons entry rest ih =>
      cases rest with
      | nil => simp [compactEntries, joined, separated, entryChars, chars]
      | cons next others => simp [compactEntries, ih, joined, separated, entryChars, chars]

theorem array_chars_before (items : List Json) (rest : List Char) :
    (array items).chars ++ rest = '[' :: (joined chars [','] items ++ ']' :: rest) := by
  simp [chars, compact, ← items_joined]

theorem object_chars_before (entries : List (String × Json)) (rest : List Char) :
    (object entries).chars ++ rest = '\x7b' :: (joined entryChars [','] entries ++ '\x7d' :: rest) := by
  simp [chars, compact, ← entries_joined]

theorem comma_punctuation (close : Char) (solid : isNumeral close = false) (other : close ≠ ',') :
    Punctuation [','] EndsValue fun rest => ∃ after, rest = close :: after := by
  refine ⟨fun next c head => ?_, ?_, ?_⟩
  · cases head
    decide
  · rintro rest ⟨after, rfl⟩ c head
    cases head
    exact solid
  · rintro rest next ⟨after, rfl⟩ same
    exact other (List.cons.inj same).1

theorem value_unclosed (value : Json) (next : List Char) :
    ¬∃ after, value.chars ++ next = ']' :: after := by
  rintro ⟨after, same⟩
  exact begins_otherwise ']' (by decide) value next after same

theorem entry_unclosed (entry : String × Json) (next : List Char) :
    ¬∃ after, entryChars entry ++ next = '\x7d' :: after := by
  rintro ⟨after, same⟩
  rw [entryChars, List.append_assoc, quote_chars] at same
  exact absurd (List.cons.inj same).1 (by decide)

theorem quote_told (key other : String) (rest tail : List Char)
    (same : (quote key).toList ++ rest = (quote other).toList ++ tail) : key = other ∧ rest = tail := by
  rw [quote_chars, quote_chars] at same
  have read := read_string_escaped key rest
  rw [(List.cons.inj same).2, read_string_escaped other tail] at read
  cases read
  exact ⟨rfl, rfl⟩

section

variable (known : List Json)

def Within (value : Json) : Prop :=
  ∀ number ∈ value.numbers, number ∈ known

def Told (value : Json) : Prop :=
  ∀ other, Within known other → Faithful chars (· = ·) EndsValue value other

theorem entry_told (key : String) (value : Json) (told : Told known value) (other : String × Json)
    (within : Within known other.2) : Faithful entryChars (· = ·) EndsValue (key, value) other := by
  intro rest tail ends otherEnds same
  rcases other with ⟨otherKey, otherValue⟩
  simp only [entryChars, List.append_assoc, List.cons_append] at same
  obtain ⟨rfl, behind⟩ := quote_told key otherKey _ _ same
  obtain ⟨rfl, rests⟩ := told otherValue within rest tail ends otherEnds (List.cons.inj behind).2
  exact ⟨rfl, rests⟩

theorem item_within (items : List Json) (within : Within known (array items)) :
    ∀ item ∈ items, Within known item := by
  induction items with
  | nil => simp
  | cons item rest ih =>
      simp only [Within, numbers, itemNumbers, List.forall_mem_append] at within
      exact List.forall_mem_cons.mpr ⟨within.1, ih within.2⟩

theorem entry_within (entries : List (String × Json)) (within : Within known (object entries)) :
    ∀ entry ∈ entries, Within known entry.2 := by
  induction entries with
  | nil => simp
  | cons entry rest ih =>
      simp only [Within, numbers, entryNumbers, List.forall_mem_append] at within
      exact List.forall_mem_cons.mpr ⟨within.1, ih within.2⟩

theorem number_within (number : Json) (numeric : number.isNumber = true)
    (within : Within known number) : number ∈ known := by
  cases number with
  | integer whole => exact within _ (List.mem_singleton_self _)
  | float double => exact within _ (List.mem_singleton_self _)
  | _ => cases numeric

theorem number_told (apart : SpelledApart known) (number : Json) (numeric : number.isNumber = true)
    (within : Within known number) : Told known number := by
  intro other otherWithin rest tail ends otherEnds same
  have marks := marks_alike number other rest tail same
  rw [(mark_number_iff number).mpr numeric] at marks
  have otherNumeric := (mark_number_iff other).mp marks.symm
  obtain ⟨texts, rests⟩ := word_told isNumeral _ _ rest tail (number_numerals number numeric)
    (number_numerals other otherNumeric) ends otherEnds same
  exact ⟨apart number (number_within known number numeric within) other
    (number_within known other otherNumeric otherWithin) (String.toList_injective texts), rests⟩

theorem array_told (items : List Json) (told : ∀ item ∈ items, Told known item) :
    Told known (array items) := by
  intro other within rest tail _ _ same
  have marks := marks_alike (array items) other rest tail same
  cases other with
  | array others =>
      rw [array_chars_before, array_chars_before] at same
      obtain ⟨alike, rests⟩ := joined_faithful chars (· = ·) [',']
        (comma_punctuation ']' (by decide) (by decide)) items others value_unclosed
        (fun one member other listed => told one member other (item_within known others within other listed))
        (']' :: rest) (']' :: tail) ⟨rest, rfl⟩ ⟨tail, rfl⟩ (List.cons.inj same).2
      rw [List.forall₂_eq_eq_eq] at alike
      exact ⟨congrArg array alike, (List.cons.inj rests).2⟩
  | _ => simp [mark] at marks

theorem object_told (entries : List (String × Json)) (told : ∀ entry ∈ entries, Told known entry.2) :
    Told known (object entries) := by
  intro other within rest tail _ _ same
  have marks := marks_alike (object entries) other rest tail same
  cases other with
  | object others =>
      rw [object_chars_before, object_chars_before] at same
      obtain ⟨alike, rests⟩ := joined_faithful entryChars (· = ·) [',']
        (comma_punctuation '\x7d' (by decide) (by decide)) entries others entry_unclosed
        (fun one member other listed => entry_told known one.1 one.2 (told one member) other
          (entry_within known others within other listed))
        ('\x7d' :: rest) ('\x7d' :: tail) ⟨rest, rfl⟩ ⟨tail, rfl⟩ (List.cons.inj same).2
      rw [List.forall₂_eq_eq_eq] at alike
      exact ⟨congrArg object alike, (List.cons.inj rests).2⟩
  | _ => simp [mark] at marks

theorem null_told : Told known null := by
  intro other _ rest tail _ _ same
  have marks := marks_alike null other rest tail same
  cases other with
  | null => exact ⟨rfl, List.append_cancel_left same⟩
  | _ => simp [mark] at marks

theorem flag_told (flag : Bool) : Told known (bool flag) := by
  intro other _ rest tail _ _ same
  have marks := marks_alike (bool flag) other rest tail same
  cases other with
  | bool otherFlag =>
      by_cases flags : flag = otherFlag
      · subst flags
        exact ⟨rfl, List.append_cancel_left same⟩
      · cases flag <;> cases otherFlag <;> first | exact absurd rfl flags | cases same
  | _ => simp [mark] at marks

theorem text_told (text : String) : Told known (string text) := by
  intro other _ rest tail _ _ same
  have marks := marks_alike (string text) other rest tail same
  cases other with
  | string otherText =>
      obtain ⟨rfl, rests⟩ := quote_told text otherText rest tail same
      exact ⟨rfl, rests⟩
  | _ => simp [mark] at marks

mutual

theorem value_told (apart : SpelledApart known) (value : Json) (within : Within known value) :
    Told known value := by
  match value with
  | .null => exact null_told known
  | .bool flag => exact flag_told known flag
  | .integer whole => exact number_told known apart _ rfl within
  | .float double => exact number_told known apart _ rfl within
  | .string text => exact text_told known text
  | .array items =>
      exact array_told known items (items_told apart items (item_within known items within))
  | .object entries =>
      exact object_told known entries (entries_told apart entries (entry_within known entries within))
termination_by structural value

theorem items_told (apart : SpelledApart known) (items : List Json)
    (within : ∀ item ∈ items, Within known item) : ∀ item ∈ items, Told known item := by
  match items with
  | [] => simp
  | item :: rest =>
      obtain ⟨first, others⟩ := List.forall_mem_cons.mp within
      exact List.forall_mem_cons.mpr ⟨value_told apart item first, items_told apart rest others⟩
termination_by structural items

theorem entries_told (apart : SpelledApart known) (entries : List (String × Json))
    (within : ∀ entry ∈ entries, Within known entry.2) : ∀ entry ∈ entries, Told known entry.2 := by
  match entries with
  | [] => simp
  | (key, value) :: rest =>
      obtain ⟨first, others⟩ := List.forall_mem_cons.mp within
      exact List.forall_mem_cons.mpr ⟨value_told apart value first, entries_told apart rest others⟩
termination_by structural entries

end

end

end BrowserFlow.Json
