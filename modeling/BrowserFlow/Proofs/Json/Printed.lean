import BrowserFlow.Proofs.Json.Spelling
/-! Reading what was printed. The text of a value, indented or on one line, is read as something that writes
this value, if the value is not nested too deep and its numbers are read from their own texts. -/
set_option autoImplicit false

namespace BrowserFlow.Json

open Number Text

namespace Written

mutual

def Writes (written : Written) (value : Json) : Prop :=
  match written with
  | scalar start reading passing => reading = .ok value ∧ IsLeaf value ∧
    (∃ rest, passing = .ok rest) ∧ ∀ text, value = .string text → start.head? = some '\x22'
  | array _ level items ending => level < jsonNestingLimit ∧ (∃ rest, ending = .closed rest) ∧
    ∃ values, value = .array values ∧ ItemsWrite items values
  | object _ level entries ending => level < jsonNestingLimit ∧ (∃ rest, ending = .closed rest) ∧
    ∃ members, value = .object members ∧ EntriesWrite entries members
  | absent _ _ => False
termination_by structural written

def ItemsWrite (items : List Written) (values : List Json) : Prop :=
  match items, values with
  | [], [] => True
  | item :: items, value :: values => Writes item value ∧ ItemsWrite items values
  | _, _ => False
termination_by structural items

def EntriesWrite (entries : List (Key × Written)) (members : List (String × Json)) : Prop :=
  match entries, members with
  | [], [] => True
  | (key, written) :: entries, (name, value) :: members =>
    key.name = .ok name ∧ Writes written value ∧ EntriesWrite entries members
  | _, _ => False
termination_by structural entries

end

def WritesThen (written : Written) (value : Json) (rest : List Char) : Prop :=
  Writes written value ∧ written.passed = .ok rest

theorem word_written (first : Char) (letters : List Char) (value : Json) (leaf : IsLeaf value)
    (unquoted : ∀ text, value ≠ .string text)
    (solid : isSpace first = false ∧ first ≠ '[' ∧ first ≠ '\x7b') (fuel level : Nat)
    (rest : List Char)
    (spelled : ofScalar (first :: (letters ++ rest)) =
      Written.word (first :: (letters ++ rest)) value letters (letters ++ rest)) :
    WritesThen (ofChars (fuel + 1) level (first :: (letters ++ rest))) value rest := by
  rw [of_chars_scalar fuel level _ fun c head => by cases head; exact solid, spelled, Written.word,
    read_word_written]
  exact ⟨⟨rfl, leaf, ⟨rest, rfl⟩, fun text same => absurd same (unquoted text)⟩, rfl⟩

theorem numeral_written (number : Json) (numeric : number.isNumber = true) (kept : Kept number)
    (fuel level : Nat) (rest : List Char) (ends : EndsNumber rest) :
    WritesThen (ofChars (fuel + 1) level (number.compact.toList ++ rest)) number rest := by
  obtain ⟨⟨negative, digits, numeral, taken, valued, scalar⟩, c, tail, begins, first⟩ :=
    number_read number numeric kept
  have plain : ∀ other ∈ (number.compact.toList ++ rest).head?,
      isSpace other = false ∧ other ≠ '[' ∧ other ≠ '\x7b' := by
    intro other head
    rw [begins] at head
    cases head
    exact numeral_solid c first
  rw [of_chars_scalar fuel level _ plain, scalar, Written.number,
    take_numeral_before rest ends negative digits [] numeral taken]
  have valuedBefore := numeral_value_before rest numeral [] number valued
  refine ⟨⟨valuedBefore, ?_, ⟨_, rfl⟩, ?_⟩, rfl⟩
  · cases number <;> trivial
  · rintro text rfl
    cases numeric

theorem leaf_written (value : Json) (leaf : IsLeaf value)
    (kept : ∀ number ∈ value.numbers, Kept number) (fuel level : Nat) (rest : List Char)
    (ends : EndsNumber rest) :
    WritesThen (ofChars (fuel + 1) level ((scalarText value).toList ++ rest)) value rest := by
  cases value with
  | null => exact word_written 'n' "ull".toList .null trivial (by simp) (by decide) fuel level rest rfl
  | bool flag =>
      cases flag with
      | true =>
          exact word_written 't' "rue".toList (.bool true) trivial (by simp) (by decide) fuel level
            rest rfl
      | false =>
          exact word_written 'f' "alse".toList (.bool false) trivial (by simp) (by decide) fuel level
            rest rfl
  | integer whole =>
      exact numeral_written (.integer whole) rfl (kept _ (List.mem_singleton_self _)) fuel level rest
        ends
  | float double =>
      exact numeral_written (.float double) rfl (kept _ (List.mem_singleton_self _)) fuel level rest
        ends
  | string text =>
      rw [scalarText, quote_chars, of_chars_scalar fuel level _ fun c head => by cases head; decide]
      have read := read_string_escaped text rest
      simp only [ofScalar, Written.string, read]
      exact ⟨⟨rfl, trivial, ⟨rest, rfl⟩, fun _ _ => rfl⟩, rfl⟩
  | array items => cases leaf
  | object entries => cases leaf

theorem array_ended (fuel level : Nat) (chars blank rest : List Char) (spaces : Blank blank)
    (begins : Begins chars) (items : List Written)
    (read : itemsOfChars fuel (level + 1) chars = (items, .closed rest)) :
    ofChars (fuel + 1) level ('[' :: (blank ++ chars)) =
      .array ('[' :: (blank ++ chars)) (level + 1) items (.closed rest) := by
  obtain ⟨c, tail, rfl, solid, unended⟩ := begins
  have first : skipSpace ('[' :: (blank ++ c :: tail)) = '[' :: (blank ++ c :: tail) := rfl
  have inner : skipSpace (blank ++ c :: tail) = c :: tail := by
    rw [skip_blank blank _ spaces, skip_space_none _ fun other head => by cases head; exact solid]
  rw [ofChars]
  simp only [first, inner]
  split
  · rename_i same
    exact absurd (List.cons.inj same).1 unended
  · rename_i same
    cases same
  · rw [read]

theorem object_ended (fuel level : Nat) (chars blank rest : List Char) (spaces : Blank blank)
    (begins : ∃ tail, chars = '\x22' :: tail) (entries : List (Key × Written))
    (read : entriesOfChars fuel (level + 1) chars = (entries, .closed rest)) :
    ofChars (fuel + 1) level ('\x7b' :: (blank ++ chars)) =
      .object ('\x7b' :: (blank ++ chars)) (level + 1) entries (.closed rest) := by
  obtain ⟨tail, rfl⟩ := begins
  have first : skipSpace ('\x7b' :: (blank ++ '\x22' :: tail)) =
      '\x7b' :: (blank ++ '\x22' :: tail) := rfl
  have inner : skipSpace (blank ++ '\x22' :: tail) = '\x22' :: tail := skip_blank blank _ spaces
  rw [ofChars]
  simp only [first, inner]
  split
  · rename_i same
    cases same
  · rename_i same
    cases same
  · rw [read]

theorem key_read (key : String) (value : List Char) :
    ofKey (key.toList.flatMap escapeChar ++ '\x22' :: value) = (⟨.ok key, value⟩, .ok value) := by
  rw [ofKey, read_string_escaped]

section

variable (fuel level : Nat) (chars blank rest next : List Char) (spaces : Blank blank)

include spaces

theorem item_last (passed : (ofChars fuel level chars).passed = .ok (blank ++ ']' :: rest)) :
    itemsOfChars (fuel + 1) level chars = ([ofChars fuel level chars], .closed rest) := by
  have ended : skipSpace (blank ++ ']' :: rest) = ']' :: rest := skip_blank blank _ spaces
  rw [itemsOfChars]
  simp only [passed, ended]

theorem item_then (passed : (ofChars fuel level chars).passed = .ok (',' :: (blank ++ next)))
    (begins : Begins next) (items : List Written)
    (read : itemsOfChars fuel level next = (items, .closed rest)) :
    itemsOfChars (fuel + 1) level chars = (ofChars fuel level chars :: items, .closed rest) := by
  obtain ⟨c, tail, rfl, solid, unended⟩ := begins
  have comma : skipSpace (',' :: (blank ++ c :: tail)) = ',' :: (blank ++ c :: tail) := rfl
  have inner : skipSpace (blank ++ c :: tail) = c :: tail := by
    rw [skip_blank blank _ spaces, skip_space_none _ fun other head => by cases head; exact solid]
  rw [itemsOfChars]
  simp only [passed, comma, inner]
  split
  · rename_i same
    exact absurd (List.cons.inj same).1 unended
  · rename_i same
    cases same
  · rw [read]

theorem entry_last (space : List Char) (gap : Blank space) (key : String)
    (passed : (ofChars fuel level chars).passed = .ok (blank ++ '\x7d' :: rest)) :
    entriesOfChars (fuel + 1) level ((quote key).toList ++ ':' :: (space ++ chars)) =
      ([(⟨.ok key, ':' :: (space ++ chars)⟩, ofChars fuel level chars)], .closed rest) := by
  have colon : skipSpace (':' :: (space ++ chars)) = ':' :: (space ++ chars) := rfl
  have ended : skipSpace (blank ++ '\x7d' :: rest) = '\x7d' :: rest := skip_blank blank _ spaces
  rw [quote_chars, entriesOfChars]
  simp only [key_read, colon, of_chars_blank fuel level space chars gap, passed, ended]

theorem entry_then (space : List Char) (gap : Blank space) (key : String)
    (passed : (ofChars fuel level chars).passed = .ok (',' :: (blank ++ next)))
    (begins : ∃ tail, next = '\x22' :: tail) (entries : List (Key × Written))
    (read : entriesOfChars fuel level next = (entries, .closed rest)) :
    entriesOfChars (fuel + 1) level ((quote key).toList ++ ':' :: (space ++ chars)) =
      ((⟨.ok key, ':' :: (space ++ chars)⟩, ofChars fuel level chars) :: entries, .closed rest) := by
  obtain ⟨tail, rfl⟩ := begins
  have colon : skipSpace (':' :: (space ++ chars)) = ':' :: (space ++ chars) := rfl
  have comma : skipSpace (',' :: (blank ++ '\x22' :: tail)) = ',' :: (blank ++ '\x22' :: tail) := rfl
  have inner : skipSpace (blank ++ '\x22' :: tail) = '\x22' :: tail := skip_blank blank _ spaces
  rw [quote_chars, entriesOfChars]
  simp only [key_read, colon, of_chars_blank fuel level space chars gap, passed, comma, inner]
  split
  · rename_i same
    cases same
  · rename_i same
    cases same
  · rw [read]

end

theorem ends_number_closed (blank rest : List Char) (close : Char) (spaces : Blank blank)
    (closes : close = ']' ∨ close = '\x7d' ∨ close = ',') : EndsNumber (blank ++ close :: rest) := by
  refine ends_number_blank blank _ spaces (ends_number_head close rest ?_)
  rcases closes with rfl | rfl | rfl <;> decide

section Legible

variable (spacing : Spacing)

-- What is read of the text of the value writes it, whatever stands behind it; and of what stands
-- between the brackets of an array or object likewise.
def Legible (value : Json) : Prop :=
  ∀ (fuel level : Nat) (rest : List Char), value.depth + level < jsonNestingLimit →
    2 * (spelled spacing level value).length + 2 ≤ fuel → EndsNumber rest →
    WritesThen (ofChars fuel level (spelled spacing level value ++ rest)) value rest

def ItemsLegible (items : List Json) : Prop :=
  ∀ (fuel level : Nat) (blank rest : List Char), items ≠ [] → Blank blank →
    itemsDepth items + level < jsonNestingLimit →
    2 * (itemsSpelled spacing level items).length + 3 ≤ fuel →
    ∃ written, itemsOfChars fuel level (itemsSpelled spacing level items ++ (blank ++ ']' :: rest)) =
      (written, .closed rest) ∧ ItemsWrite written items

def EntriesLegible (entries : List (String × Json)) : Prop :=
  ∀ (fuel level : Nat) (blank rest : List Char), entries ≠ [] → Blank blank →
    entriesDepth entries + level < jsonNestingLimit →
    2 * (entriesSpelled spacing level entries).length + 3 ≤ fuel →
    ∃ written,
      entriesOfChars fuel level (entriesSpelled spacing level entries ++ (blank ++ '\x7d' :: rest)) =
        (written, .closed rest) ∧ EntriesWrite written entries

theorem leaf_legible (value : Json) (leaf : IsLeaf value)
    (kept : ∀ number ∈ value.numbers, Kept number) : Legible spacing value := by
  intro fuel level rest _ enough ends
  cases fuel with
  | zero => omega
  | succ fuel =>
      rw [leaf_spelled spacing level value leaf]
      exact leaf_written value leaf kept fuel level rest ends

theorem array_legible (items : List Json) (kept : ∀ number ∈ itemNumbers items, Kept number)
    (inside : ItemsLegible spacing items) : Legible spacing (.array items) := by
  intro fuel level rest shallow enough _
  rw [depth] at shallow
  cases fuel with
  | zero => omega
  | succ fuel =>
      by_cases empty : items = []
      · subst empty
        have whole : ofChars (fuel + 1) level ('[' :: ']' :: rest) =
            .array ('[' :: ']' :: rest) (level + 1) [] (.closed rest) := rfl
        rw [spelled, if_pos List.isEmpty_nil, List.cons_append, List.singleton_append, whole]
        exact ⟨⟨by omega, ⟨rest, rfl⟩, [], rfl, trivial⟩, rfl⟩
      · have text := array_spelled spacing level items empty
        rw [text] at enough ⊢
        simp only [List.length_cons, List.length_append] at enough
        obtain ⟨written, read, writes⟩ := inside fuel (level + 1) (spacing.gap level) rest empty
          (spacing.gapBlank level) (by omega) (by omega)
        have begins := (items_begin spacing (level + 1) items empty kept).append
          (spacing.gap level ++ ']' :: rest)
        simp only [List.cons_append, List.append_assoc, List.nil_append]
        rw [array_ended fuel level _ _ rest (spacing.gapBlank (level + 1)) begins written read]
        exact ⟨⟨by omega, ⟨rest, rfl⟩, items, rfl, writes⟩, rfl⟩

theorem object_legible (entries : List (String × Json)) (inside : EntriesLegible spacing entries) :
    Legible spacing (.object entries) := by
  intro fuel level rest shallow enough _
  rw [depth] at shallow
  cases fuel with
  | zero => omega
  | succ fuel =>
      by_cases empty : entries = []
      · subst empty
        have whole : ofChars (fuel + 1) level ('\x7b' :: '\x7d' :: rest) =
            .object ('\x7b' :: '\x7d' :: rest) (level + 1) [] (.closed rest) := rfl
        rw [spelled, if_pos List.isEmpty_nil, List.cons_append, List.singleton_append, whole]
        exact ⟨⟨by omega, ⟨rest, rfl⟩, [], rfl, trivial⟩, rfl⟩
      · have text := object_spelled spacing level entries empty
        rw [text] at enough ⊢
        simp only [List.length_cons, List.length_append] at enough
        obtain ⟨written, read, writes⟩ := inside fuel (level + 1) (spacing.gap level) rest empty
          (spacing.gapBlank level) (by omega) (by omega)
        have begins := entries_begin spacing (level + 1) entries empty
          (spacing.gap level ++ '\x7d' :: rest)
        simp only [List.cons_append, List.append_assoc, List.nil_append]
        rw [object_ended fuel level _ _ rest (spacing.gapBlank (level + 1)) begins written read]
        exact ⟨⟨by omega, ⟨rest, rfl⟩, entries, rfl, writes⟩, rfl⟩

theorem item_legible (item : Json) (others : List Json)
    (kept : ∀ number ∈ itemNumbers others, Kept number) (first : Legible spacing item)
    (later : ItemsLegible spacing others) : ItemsLegible spacing (item :: others) := by
  intro fuel level blank rest _ spaces shallow enough
  rw [itemsDepth] at shallow
  cases fuel with
  | zero => omega
  | succ fuel =>
      by_cases last : others = []
      · subst last
        rw [itemsSpelled] at enough ⊢
        obtain ⟨writes, passed⟩ := first fuel level (blank ++ ']' :: rest) (by omega) (by omega)
          (ends_number_closed blank rest ']' spaces (by simp))
        exact ⟨_, item_last fuel level _ blank rest spaces passed, writes, trivial⟩
      · rw [items_spelled spacing level item others last] at enough ⊢
        simp only [List.length_cons, List.length_append] at enough
        simp only [List.append_assoc, List.cons_append]
        obtain ⟨writes, passed⟩ := first fuel level
          (',' :: (spacing.gap level ++ (itemsSpelled spacing level others ++ (blank ++ ']' :: rest))))
          (by omega) (by omega) (ends_number_head ',' _ (by decide))
        obtain ⟨written, read, follow⟩ := later fuel level blank rest last spaces (by omega) (by omega)
        have begins := (items_begin spacing level others last kept).append (blank ++ ']' :: rest)
        exact ⟨_, item_then fuel level _ _ rest _ (spacing.gapBlank level) passed begins written read,
          writes, follow⟩

theorem entry_legible (key : String) (value : Json) (others : List (String × Json))
    (first : Legible spacing value) (later : EntriesLegible spacing others) :
    EntriesLegible spacing ((key, value) :: others) := by
  intro fuel level blank rest _ spaces shallow enough
  rw [entriesDepth] at shallow
  cases fuel with
  | zero => omega
  | succ fuel =>
      by_cases last : others = []
      · subst last
        rw [entriesSpelled] at enough ⊢
        simp only [List.length_append, List.length_cons] at enough
        simp only [List.append_assoc, List.cons_append]
        obtain ⟨writes, passed⟩ := first fuel level (blank ++ '\x7d' :: rest) (by omega) (by omega)
          (ends_number_closed blank rest '\x7d' spaces (by simp))
        exact ⟨_, entry_last fuel level _ blank rest spaces _ spacing.spaceBlank key passed, rfl, writes,
          trivial⟩
      · rw [entries_spelled spacing level key value others last] at enough ⊢
        simp only [List.length_append, List.length_cons] at enough
        simp only [List.append_assoc, List.cons_append]
        obtain ⟨writes, passed⟩ := first fuel level
          (',' :: (spacing.gap level ++
            (entriesSpelled spacing level others ++ (blank ++ '\x7d' :: rest))))
          (by omega) (by omega) (ends_number_head ',' _ (by decide))
        obtain ⟨written, read, follow⟩ := later fuel level blank rest last spaces (by omega) (by omega)
        have begins := entries_begin spacing level others last (blank ++ '\x7d' :: rest)
        exact ⟨_, entry_then fuel level _ _ rest _ (spacing.gapBlank level) _ spacing.spaceBlank key
          passed begins written read, rfl, writes, follow⟩

mutual

theorem legible (value : Json) (kept : ∀ number ∈ value.numbers, Kept number) :
    Legible spacing value := by
  match value with
  | .null => exact leaf_legible spacing _ trivial kept
  | .bool flag => exact leaf_legible spacing _ trivial kept
  | .integer whole => exact leaf_legible spacing _ trivial kept
  | .float double => exact leaf_legible spacing _ trivial kept
  | .string text => exact leaf_legible spacing _ trivial kept
  | .array items => exact array_legible spacing items kept (items_legible items kept)
  | .object entries => exact object_legible spacing entries (entries_legible entries kept)
termination_by structural value

theorem items_legible (items : List Json) (kept : ∀ number ∈ itemNumbers items, Kept number) :
    ItemsLegible spacing items := by
  match items with
  | [] => exact fun _ _ _ _ more => absurd rfl more
  | item :: others =>
      rw [itemNumbers, List.forall_mem_append] at kept
      exact item_legible spacing item others kept.2 (legible item kept.1)
        (items_legible others kept.2)
termination_by structural items

theorem entries_legible (entries : List (String × Json))
    (kept : ∀ number ∈ entryNumbers entries, Kept number) : EntriesLegible spacing entries := by
  match entries with
  | [] => exact fun _ _ _ _ more => absurd rfl more
  | (key, value) :: others =>
      rw [entryNumbers, List.forall_mem_append] at kept
      exact entry_legible spacing key value others (legible value kept.1)
        (entries_legible others kept.2)
termination_by structural entries

end

theorem spelled_written (value : Json) (kept : ∀ number ∈ value.numbers, Kept number)
    (shallow : value.depth < jsonNestingLimit) (text : String) (blank : List Char) (spaces : Blank blank)
    (chars : text.toList = spelled spacing 0 value ++ blank) :
    Writes (ofText text) value ∧ (ofText text).checkEnd = .ok () := by
  have ends : EndsNumber blank := by
    have ends := ends_number_blank blank [] spaces (by simp [EndsNumber])
    rwa [List.append_nil] at ends
  have written := legible spacing value kept (2 * text.toList.length + 2) 0 blank (by omega)
    (by rw [chars, List.length_append]; omega) ends
  rw [← chars] at written
  have passed : (ofText text).passed = .ok blank := written.2
  have nothing : skipSpace blank = [] := by
    have skipped := skip_blank blank [] spaces
    rwa [List.append_nil] at skipped
  refine ⟨written.1, ?_⟩
  simp only [checkEnd, passed, bind, Except.bind, nothing]
  rfl

end Legible

theorem pretty_written (value : Json) (kept : ∀ number ∈ value.numbers, Kept number)
    (shallow : value.depth < jsonNestingLimit) :
    Writes (ofText (value.pretty ++ "\n")) value ∧ (ofText (value.pretty ++ "\n")).checkEnd = .ok () := by
  refine spelled_written .lines value kept shallow _ ['\n'] (by simp [Blank, isSpace]) ?_
  rw [String.toList_append, pretty, indented_spelled]
  rfl

theorem printed_written (value : Json) (kept : ∀ number ∈ value.numbers, Kept number)
    (shallow : value.depth < jsonNestingLimit) (text : String)
    (printed : text = value.pretty ∨ text = value.compact) :
    Writes (ofText text) value ∧ (ofText text).checkEnd = .ok () := by
  rcases printed with rfl | rfl
  · refine spelled_written .lines value kept shallow _ [] nothing_blank ?_
    rw [pretty, indented_spelled, List.append_nil]
  · refine spelled_written .none value kept shallow _ [] nothing_blank ?_
    rw [compact_spelled 0, List.append_nil]

end Written

end BrowserFlow.Json
