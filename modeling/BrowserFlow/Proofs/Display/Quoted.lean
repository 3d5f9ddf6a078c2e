import BrowserFlow.Proofs.Interpolation
import BrowserFlow.Proofs.Json.Compact
/-! Quoted texts. Literals and templates are shown between quotes with some of their characters behind a
backslash; read up to the closing quote they are found again, whatever stands behind it. -/
set_option autoImplicit false

namespace BrowserFlow

open Json

def putBefore (front : List Char) (read : List Char × List Char) : List Char × List Char :=
  (front ++ read.1, read.2)

-- What stands before the closing quote, and what behind it. A backslash gives the next character
-- another meaning, or keeps it from being the quote.
def readQuoted (meaning : Char → Char) (quote : Char) : List Char → Option (List Char × List Char)
  | [] => none
  | '\\' :: c :: rest => (readQuoted meaning quote rest).map (putBefore [meaning c])
  | c :: rest =>
    if c = quote then some ([], rest) else (readQuoted meaning quote rest).map (putBefore [c])

def literalMeaning (c : Char) : Char :=
  if c = 'n' then '\n' else if c = 'r' then '\r' else if c = 't' then '\t' else c

def readLiteral : List Char → Option (List Char × List Char) :=
  readQuoted literalMeaning '\x27'

def readTemplate : List Char → Option (List Char × List Char) :=
  readQuoted id '\x60'

section

variable (meaning : Char → Char) (quote : Char)

theorem put_before_twice (front more : List Char) (read : Option (List Char × List Char)) :
    (read.map (putBefore more)).map (putBefore front) = read.map (putBefore (front ++ more)) := by
  cases read with
  | none => rfl
  | some pair => simp [putBefore]

theorem read_escaped (c : Char) (rest : List Char) :
    readQuoted meaning quote ('\\' :: c :: rest) =
      (readQuoted meaning quote rest).map (putBefore [meaning c]) := by
  rw [readQuoted]

theorem read_plain (c : Char) (rest : List Char) (unescaped : c ≠ '\\') :
    readQuoted meaning quote (c :: rest) =
      if c = quote then some ([], rest) else (readQuoted meaning quote rest).map (putBefore [c]) := by
  rw [readQuoted]
  intro other tail same
  exact absurd same unescaped

theorem read_free (front rest : List Char) (unescaped : '\\' ∉ front) (unquoted : quote ∉ front) :
    readQuoted meaning quote (front ++ rest) =
      (readQuoted meaning quote rest).map (putBefore front) := by
  induction front with
  | nil => cases read : readQuoted meaning quote rest <;> simp [putBefore, read]
  | cons c tail ih =>
      simp only [List.mem_cons, not_or] at unescaped unquoted
      rw [List.cons_append, read_plain meaning quote c _ (Ne.symm unescaped.1),
        if_neg (Ne.symm unquoted.1), ih unescaped.2 unquoted.2, put_before_twice]
      rfl

end

theorem literal_char_read (c : Char) (rest : List Char) :
    readLiteral (escapeLiteralChar c ++ rest) = (readLiteral rest).map (putBefore [c]) := by
  by_cases backslash : c = '\\'
  · subst backslash
    exact read_escaped _ _ '\\' rest
  by_cases apostrophe : c = '\x27'
  · subst apostrophe
    exact read_escaped _ _ '\x27' rest
  by_cases lineFeed : c = '\n'
  · subst lineFeed
    exact read_escaped _ _ 'n' rest
  by_cases carriageReturn : c = '\r'
  · subst carriageReturn
    exact read_escaped _ _ 'r' rest
  by_cases tab : c = '\t'
  · subst tab
    exact read_escaped _ _ 't' rest
  have plain : escapeLiteralChar c = [c] := by
    simp [escapeLiteralChar, backslash, apostrophe, lineFeed, carriageReturn, tab]
  rw [plain, List.singleton_append, readLiteral, read_plain _ _ c rest backslash, if_neg apostrophe]

theorem literal_read (text : String) (rest : List Char) :
    readLiteral ((escapeLiteral text).toList ++ '\x27' :: rest) = some (text.toList, rest) := by
  rw [escapeLiteral, String.toList_ofList]
  induction text.toList with
  | nil => rfl
  | cons c tail ih =>
      rw [List.flatMap_cons, List.append_assoc, literal_char_read, ih]
      rfl

theorem literal_told (text other : String) (rest tail : List Char)
    (same : (escapeLiteral text).toList ++ '\x27' :: rest =
      (escapeLiteral other).toList ++ '\x27' :: tail) : text = other ∧ rest = tail := by
  have read := literal_read text rest
  rw [same, literal_read other tail] at read
  simp only [Option.some.injEq, Prod.mk.injEq] at read
  exact ⟨(String.toList_injective read.1).symm, read.2.symm⟩

def literalChars (value : Json) : List Char :=
  (literalText value).toList

theorem literal_chars_string (text : String) (rest : List Char) :
    literalChars (string text) ++ rest = '\x27' :: ((escapeLiteral text).toList ++ '\x27' :: rest) := by
  simp [literalChars, literalText]

theorem literal_chars_plain (value : Json) (plain : value.string? = none) :
    literalChars value = value.chars := by
  cases value with
  | string text => cases plain
  | _ => rfl

theorem string_of_text (value : Json) (text : String) (found : value.string? = some text) :
    value = string text := by
  cases value with
  | string other =>
      cases found
      rfl
  | _ => cases found

theorem literal_text_told (known : List Json) (apart : SpelledApart known) (one other : Json)
    (within : Within known one) (otherWithin : Within known other) :
    Text.Faithful literalChars (· = ·) EndsValue one other := by
  have foreign : markOf '\x27' ∉ marks := by decide
  intro rest tail ends otherEnds same
  cases shape : one.string? with
  | some text =>
      have oneIs := string_of_text one text shape
      subst oneIs
      rw [literal_chars_string] at same
      cases otherShape : other.string? with
      | some otherText =>
          have otherIs := string_of_text other otherText otherShape
          subst otherIs
          rw [literal_chars_string] at same
          obtain ⟨rfl, rests⟩ := literal_told _ _ _ _ (List.cons.inj same).2
          exact ⟨rfl, rests⟩
      | none =>
          rw [literal_chars_plain other otherShape] at same
          exact absurd same.symm (begins_otherwise '\x27' foreign other _ _)
  | none =>
      rw [literal_chars_plain one shape] at same
      cases otherShape : other.string? with
      | some otherText =>
          have otherIs := string_of_text other otherText otherShape
          subst otherIs
          rw [literal_chars_string] at same
          exact absurd same (begins_otherwise '\x27' foreign one _ _)
      | none =>
          rw [literal_chars_plain other otherShape] at same
          exact value_told known apart one within other otherWithin rest tail ends otherEnds same

theorem escape_template_cons (c : Char) (tail : List Char)
    (unopened : ∀ rest, c = '$' → tail = '\x7b' :: rest → False) :
    escapeTemplateChars (c :: tail) =
      if c = '\\' ∨ c = '\x60' then '\\' :: c :: escapeTemplateChars tail
      else c :: escapeTemplateChars tail := by
  rw [escapeTemplateChars]
  · by_cases backslash : c = '\\'
    · rw [if_pos backslash, if_pos (Or.inl backslash), backslash]
    by_cases backquote : c = '\x60'
    · rw [if_neg backslash, if_pos backquote, if_pos (Or.inr backquote), backquote]
    · rw [if_neg backslash, if_neg backquote, if_neg (not_or.mpr ⟨backslash, backquote⟩)]
  · exact unopened

theorem template_chars_read (chars rest : List Char) :
    readTemplate (escapeTemplateChars chars ++ rest) = (readTemplate rest).map (putBefore chars) := by
  have behind : ∀ c tail,
      readTemplate ('\\' :: c :: (escapeTemplateChars tail ++ rest)) =
        (readTemplate (escapeTemplateChars tail ++ rest)).map (putBefore [c]) :=
    fun c tail => read_escaped id '\x60' c _
  induction chars using escapeTemplateChars.induct with
  | case1 => cases read : readTemplate rest <;> simp [escapeTemplateChars, putBefore, read]
  | case2 tail ih =>
      have brace := read_plain id '\x60' '\x7b' (escapeTemplateChars tail ++ rest) (by decide)
      rw [if_neg (by decide), ← readTemplate, ih, put_before_twice] at brace
      rw [escapeTemplateChars, List.cons_append, List.cons_append, List.cons_append, readTemplate,
        read_escaped, ← readTemplate, brace, put_before_twice]
      rfl
  | case3 tail unopened ih =>
      rw [escape_template_cons _ tail unopened, if_pos (Or.inl rfl), List.cons_append, List.cons_append,
        behind, ih, put_before_twice]
      rfl
  | case4 tail unopened _ ih =>
      rw [escape_template_cons _ tail unopened, if_pos (Or.inr rfl), List.cons_append, List.cons_append,
        behind, ih, put_before_twice]
      rfl
  | case5 c tail unopened backslash backquote ih =>
      rw [escape_template_cons c tail unopened, if_neg (not_or.mpr ⟨backslash, backquote⟩),
        List.cons_append, readTemplate, read_plain _ _ c _ backslash, if_neg backquote, ← readTemplate, ih,
        put_before_twice]
      rfl

theorem template_read (text : String) (rest : List Char) :
    readTemplate ((escapeTemplate text).toList ++ '\x60' :: rest) = some (text.toList, rest) := by
  have closed : readTemplate ('\x60' :: rest) = some ([], rest) := rfl
  rw [escapeTemplate, String.toList_ofList, template_chars_read, closed]
  simp [putBefore]

end BrowserFlow
