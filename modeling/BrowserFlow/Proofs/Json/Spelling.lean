import BrowserFlow.Proofs.Json.Scalars
/-! Values as they are printed. The indented text of a value and its text on one line are the same but for
the blanks between its parts. -/
set_option autoImplicit false

namespace BrowserFlow.Json

open Number Text

namespace Written

def IsLeaf : Json → Prop
  | .array _ => False
  | .object _ => False
  | _ => True

def Blank (chars : List Char) : Prop :=
  ∀ c ∈ chars, isSpace c = true

theorem nothing_blank : Blank [] := by
  simp [Blank]

theorem new_line_blank (level : Nat) : Blank (newLine level).toList := by
  intro c member
  rw [newLine, String.toList_ofList, List.mem_cons] at member
  rcases member with rfl | later
  · rfl
  · rw [List.eq_of_mem_replicate later]
    rfl

theorem skip_blank (blank chars : List Char) (spaces : Blank blank) :
    skipSpace (blank ++ chars) = skipSpace chars :=
  List.dropWhile_append_of_pos spaces

theorem of_chars_blank (fuel level : Nat) (blank chars : List Char) (spaces : Blank blank) :
    ofChars fuel level (blank ++ chars) = ofChars fuel level chars := by
  cases fuel with
  | zero => rfl
  | succ fuel => rw [ofChars, ofChars, skip_blank blank chars spaces]

theorem ends_number_head (c : Char) (rest : List Char)
    (other : isDigit c = false ∧ c ≠ '.' ∧ c ≠ 'e' ∧ c ≠ 'E') : EndsNumber (c :: rest) := by
  intro first head
  cases head
  exact other

theorem ends_number_blank (blank rest : List Char) (spaces : Blank blank) (ends : EndsNumber rest) :
    EndsNumber (blank ++ rest) := by
  cases blank with
  | nil => exact ends
  | cons c others =>
      have space := spaces c List.mem_cons_self
      refine ends_number_head c _ ⟨?_, ?_, ?_, ?_⟩
      · cases digit : isDigit c with
        | false => rfl
        | true =>
            simp only [isSpace, Bool.or_eq_true, beq_iff_eq] at space
            rcases space with ((rfl | rfl) | rfl) | rfl <;> cases digit
      all_goals
        rintro rfl
        cases space

-- The blanks that a printer puts before each part of an array or object and before its end, by level,
-- and behind the colon of an entry.
structure Spacing where
  gap : Nat → List Char
  space : List Char
  gapBlank : ∀ level, Blank (gap level)
  spaceBlank : Blank space

def Spacing.lines : Spacing :=
  ⟨fun level => (newLine level).toList, [' '], new_line_blank, by simp [Blank, isSpace]⟩

def Spacing.none : Spacing :=
  ⟨fun _ => [], [], fun _ => nothing_blank, nothing_blank⟩

section Spelling

variable (spacing : Spacing)

mutual

def spelled (level : Nat) (value : Json) : List Char :=
  match value with
  | .array items =>
    if items.isEmpty then ['[', ']']
    else '[' :: (spacing.gap (level + 1) ++ (itemsSpelled (level + 1) items ++
      (spacing.gap level ++ [']'])))
  | .object entries =>
    if entries.isEmpty then ['\x7b', '\x7d']
    else '\x7b' :: (spacing.gap (level + 1) ++ (entriesSpelled (level + 1) entries ++
      (spacing.gap level ++ ['\x7d'])))
  | leaf => (scalarText leaf).toList
termination_by structural value

def itemsSpelled (level : Nat) (items : List Json) : List Char :=
  match items with
  | [] => []
  | [item] => spelled level item
  | item :: rest => spelled level item ++ ',' :: (spacing.gap level ++ itemsSpelled level rest)
termination_by structural items

def entriesSpelled (level : Nat) (entries : List (String × Json)) : List Char :=
  match entries with
  | [] => []
  | [(key, value)] => (quote key).toList ++ ':' :: (spacing.space ++ spelled level value)
  | (key, value) :: rest =>
    (quote key).toList ++ ':' :: (spacing.space ++ (spelled level value ++
      ',' :: (spacing.gap level ++ entriesSpelled level rest)))
termination_by structural entries

end

theorem leaf_spelled (level : Nat) (value : Json) (leaf : IsLeaf value) :
    spelled spacing level value = (scalarText value).toList := by
  cases value with
  | array items => cases leaf
  | object entries => cases leaf
  | _ => rw [spelled] <;> nofun

theorem array_spelled (level : Nat) (items : List Json) (more : items ≠ []) :
    spelled spacing level (.array items) =
      '[' :: (spacing.gap (level + 1) ++ (itemsSpelled spacing (level + 1) items ++
        (spacing.gap level ++ [']']))) := by
  rw [spelled, if_neg (by simpa using more)]

theorem object_spelled (level : Nat) (entries : List (String × Json)) (more : entries ≠ []) :
    spelled spacing level (.object entries) =
      '\x7b' :: (spacing.gap (level + 1) ++ (entriesSpelled spacing (level + 1) entries ++
        (spacing.gap level ++ ['\x7d']))) := by
  rw [spelled, if_neg (by simpa using more)]

theorem items_spelled (level : Nat) (item : Json) (others : List Json) (more : others ≠ []) :
    itemsSpelled spacing level (item :: others) =
      spelled spacing level item ++ ',' :: (spacing.gap level ++ itemsSpelled spacing level others) := by
  rw [itemsSpelled]
  exact more

theorem entries_spelled (level : Nat) (key : String) (value : Json) (others : List (String × Json))
    (more : others ≠ []) :
    entriesSpelled spacing level ((key, value) :: others) =
      (quote key).toList ++ ':' :: (spacing.space ++ (spelled spacing level value ++
        ',' :: (spacing.gap level ++ entriesSpelled spacing level others))) := by
  rw [entriesSpelled]
  exact more

def Begins (chars : List Char) : Prop :=
  ∃ c tail, chars = c :: tail ∧ isSpace c = false ∧ c ≠ ']'

theorem Begins.append {chars : List Char} (begins : Begins chars) (rest : List Char) :
    Begins (chars ++ rest) := by
  obtain ⟨c, tail, rfl, solid, inside⟩ := begins
  exact ⟨c, tail ++ rest, rfl, solid, inside⟩

theorem spelled_begins (level : Nat) (value : Json)
    (kept : ∀ number ∈ value.numbers, Kept number) : Begins (spelled spacing level value) := by
  have numeral : ∀ number : Json, number.isNumber = true → Kept number →
      Begins number.compact.toList := by
    intro number numeric kept
    obtain ⟨c, tail, begins, numeral⟩ := (number_read number numeric kept).begins
    refine ⟨c, tail, begins, (numeral_solid c numeral).1, ?_⟩
    rintro rfl
    cases numeral
  cases value with
  | null =>
      rw [leaf_spelled spacing level .null trivial]
      exact ⟨'n', "ull".toList, rfl, rfl, by decide⟩
  | bool flag =>
      rw [leaf_spelled spacing level (.bool flag) trivial]
      cases flag with
      | true => exact ⟨'t', "rue".toList, rfl, rfl, by decide⟩
      | false => exact ⟨'f', "alse".toList, rfl, rfl, by decide⟩
  | integer whole =>
      rw [leaf_spelled spacing level (.integer whole) trivial]
      exact numeral (.integer whole) rfl (kept _ (List.mem_singleton_self _))
  | float double =>
      rw [leaf_spelled spacing level (.float double) trivial]
      exact numeral (.float double) rfl (kept _ (List.mem_singleton_self _))
  | string text =>
      rw [leaf_spelled spacing level (.string text) trivial]
      exact ⟨'\x22', _, String.toList_ofList, rfl, by decide⟩
  | array items =>
      rw [spelled]
      split
      · exact ⟨'[', [']'], rfl, rfl, by decide⟩
      · exact ⟨'[', _, rfl, rfl, by decide⟩
  | object entries =>
      rw [spelled]
      split
      · exact ⟨'\x7b', ['\x7d'], rfl, rfl, by decide⟩
      · exact ⟨'\x7b', _, rfl, rfl, by decide⟩

theorem items_begin (level : Nat) (items : List Json) (more : items ≠ [])
    (kept : ∀ number ∈ itemNumbers items, Kept number) :
    Begins (itemsSpelled spacing level items) := by
  cases items with
  | nil => exact absurd rfl more
  | cons item rest =>
      have first := spelled_begins spacing level item fun number member =>
        kept number (List.mem_append_left _ member)
      cases rest with
      | nil => exact first
      | cons next others => exact first.append _

theorem entries_begin (level : Nat) (entries : List (String × Json)) (more : entries ≠ []) :
    ∀ rest, ∃ tail, entriesSpelled spacing level entries ++ rest = '\x22' :: tail := by
  intro rest
  cases entries with
  | nil => exact absurd rfl more
  | cons entry others =>
      rcases entry with ⟨key, value⟩
      cases others with
      | nil =>
          rw [entriesSpelled, List.append_assoc, quote_chars]
          exact ⟨_, rfl⟩
      | cons next others =>
          rw [entries_spelled spacing level key value _ (by simp), List.append_assoc, quote_chars]
          exact ⟨_, rfl⟩

end Spelling

mutual

theorem indented_spelled (level : Nat) (value : Json) :
    (indented level value).toList = spelled .lines level value := by
  match value with
  | .null => rfl
  | .bool _ => rfl
  | .integer _ => rfl
  | .float _ => rfl
  | .string _ => rfl
  | .array [] =>
      rw [indented, spelled]
      rfl
  | .array (item :: rest) =>
      have first := indented_spelled (level + 1) item
      have later := indented_items_spelled (level + 1) item rest
      have opening : "[".toList = ['['] := rfl
      have closing : "]".toList = [']'] := rfl
      rw [array_spelled .lines level _ (by simp), ← later]
      simp only [indented, String.toList_append, opening, closing, first, List.append_assoc,
        List.cons_append, List.nil_append]
      rfl
  | .object [] =>
      rw [indented, spelled]
      rfl
  | .object ((key, inner) :: rest) =>
      have first := indented_spelled (level + 1) inner
      have later := indented_entries_spelled (level + 1) key inner rest
      have opening : "\x7b".toList = ['\x7b'] := rfl
      have closing : "\x7d".toList = ['\x7d'] := rfl
      have colon : ": ".toList = [':', ' '] := rfl
      rw [object_spelled .lines level _ (by simp), ← later]
      simp only [indented, String.toList_append, opening, closing, colon, first, List.append_assoc,
        List.cons_append, List.nil_append]
      rfl
termination_by structural value

theorem indented_items_spelled (level : Nat) (item : Json) (rest : List Json) :
    spelled .lines level item ++ (indentedItems level rest).toList =
      itemsSpelled .lines level (item :: rest) := by
  match rest with
  | [] => exact List.append_nil _
  | next :: others =>
      have first := indented_spelled level next
      have later := indented_items_spelled level next others
      have comma : ",".toList = [','] := rfl
      rw [items_spelled .lines level item _ (by simp), ← later]
      simp only [indentedItems, String.toList_append, comma, first, List.append_assoc,
        List.cons_append, List.nil_append]
      rfl
termination_by structural rest

theorem indented_entries_spelled (level : Nat) (key : String) (value : Json)
    (rest : List (String × Json)) :
    (quote key).toList ++ ':' :: ' ' :: (spelled .lines level value ++
        (indentedEntries level rest).toList) =
      entriesSpelled .lines level ((key, value) :: rest) := by
  match rest with
  | [] => exact congrArg (fun text => (quote key).toList ++ ':' :: ' ' :: text) (List.append_nil _)
  | (other, next) :: others =>
      have first := indented_spelled level next
      have later := indented_entries_spelled level other next others
      have comma : ",".toList = [','] := rfl
      have colon : ": ".toList = [':', ' '] := rfl
      rw [entries_spelled .lines level key value _ (by simp), ← later]
      simp only [indentedEntries, String.toList_append, comma, colon, first, List.append_assoc,
        List.cons_append, List.nil_append]
      rfl
termination_by structural rest

end

mutual

theorem compact_spelled (level : Nat) (value : Json) :
    value.compact.toList = spelled .none level value := by
  match value with
  | .null => rfl
  | .bool _ => rfl
  | .integer _ => rfl
  | .float _ => rfl
  | .string _ => rfl
  | .array [] => rfl
  | .array (item :: rest) =>
      have inside := compact_items_spelled (level + 1) (item :: rest)
      have opening : "[".toList = ['['] := rfl
      have closing : "]".toList = [']'] := rfl
      rw [array_spelled .none level _ (by simp), ← inside]
      simp only [compact, String.toList_append, opening, closing, List.cons_append, List.nil_append]
      rfl
  | .object [] => rfl
  | .object (entry :: rest) =>
      have inside := compact_entries_spelled (level + 1) (entry :: rest)
      have opening : "\x7b".toList = ['\x7b'] := rfl
      have closing : "\x7d".toList = ['\x7d'] := rfl
      rw [object_spelled .none level _ (by simp), ← inside]
      simp only [compact, String.toList_append, opening, closing, List.cons_append, List.nil_append]
      rfl
termination_by structural value

theorem compact_items_spelled (level : Nat) (items : List Json) :
    (compactItems items).toList = itemsSpelled .none level items := by
  match items with
  | [] => rfl
  | [item] => exact compact_spelled level item
  | item :: next :: others =>
      have first := compact_spelled level item
      have later := compact_items_spelled level (next :: others)
      have comma : ",".toList = [','] := rfl
      rw [items_spelled .none level item _ (by simp), ← later, ← first]
      simp only [compactItems, String.toList_append, comma, List.append_assoc, List.cons_append,
        List.nil_append]
      rfl
termination_by structural items

theorem compact_entries_spelled (level : Nat) (entries : List (String × Json)) :
    (compactEntries entries).toList = entriesSpelled .none level entries := by
  match entries with
  | [] => rfl
  | [(key, value)] =>
      have first := compact_spelled level value
      have colon : ":".toList = [':'] := rfl
      rw [entriesSpelled, ← first]
      simp only [compactEntries, String.toList_append, colon, List.append_assoc, List.cons_append,
        List.nil_append]
      rfl
  | (key, value) :: next :: others =>
      have first := compact_spelled level value
      have later := compact_entries_spelled level (next :: others)
      have comma : ",".toList = [','] := rfl
      have colon : ":".toList = [':'] := rfl
      rw [entries_spelled .none level key value _ (by simp), ← later, ← first]
      simp only [compactEntries, String.toList_append, comma, colon, List.append_assoc,
        List.cons_append, List.nil_append]
      rfl
termination_by structural entries

end

end Written

end BrowserFlow.Json
