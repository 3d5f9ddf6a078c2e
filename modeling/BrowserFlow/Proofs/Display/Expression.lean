import BrowserFlow.Proofs.Display.Quoted
/-! Expressions and their texts. From the text of an expression the authored value is found again: literals,
look-ups and templates begin differently, escaping can be undone, and in a template only references are
opened. -/
set_option autoImplicit false

namespace BrowserFlow

open Json

-- Whether a backslash escapes the character at a position; of the first one `escaped` tells it. A
-- backslash that is escaped itself escapes nothing.
def escapedAt (escaped : Bool) : List Char → Nat → Bool
  | _, 0 => escaped
  | [], _ + 1 => false
  | c :: rest, position + 1 => escapedAt (!escaped && c == '\\') rest position

def Opens (chars : List Char) (position : Nat) : Prop :=
  escapedAt false chars position = false ∧ ['$', '\x7b'] <+: chars.drop position

def Shut (front rest : List Char) : Prop :=
  ∀ position, Opens (front ++ rest) position ↔
    ∃ later, position = front.length + later ∧ Opens rest later

theorem Shut.append {front more rest : List Char} (shut : Shut front (more ++ rest))
    (shutMore : Shut more rest) : Shut (front ++ more) rest := by
  intro position
  rw [List.append_assoc, shut position]
  constructor
  · rintro ⟨later, rfl, opens⟩
    obtain ⟨last, rfl, behind⟩ := (shutMore later).mp opens
    exact ⟨last, by rw [List.length_append, Nat.add_assoc], behind⟩
  · rintro ⟨last, rfl, behind⟩
    refine ⟨more.length + last, by rw [List.length_append, Nat.add_assoc], ?_⟩
    exact (shutMore _).mpr ⟨last, rfl, behind⟩

theorem opens_behind (c : Char) (rest : List Char) (plain : c ≠ '\\') (position : Nat) :
    Opens (c :: rest) (position + 1) ↔ Opens rest position := by
  have unescaped : (!false && c == '\\') = false := by simp [plain]
  rw [Opens, Opens, escapedAt, unescaped, List.drop_succ_cons]

theorem shut_nothing (rest : List Char) : Shut [] rest := by
  intro position
  simp

theorem shut_escaped (c : Char) (rest : List Char) : Shut ['\\', c] rest := by
  intro position
  constructor
  · rintro ⟨unescaped, stands⟩
    match position with
    | 0 => simp at stands
    | 1 => cases unescaped
    | later + 2 => exact ⟨later, Nat.add_comm later 2, unescaped, stands⟩
  · rintro ⟨later, rfl, opens⟩
    rw [List.length_cons, List.length_singleton, Nat.add_comm]
    exact opens

theorem shut_plain (c : Char) (rest : List Char) (plain : c ≠ '\\')
    (unopened : ∀ tail, c = '$' → rest ≠ '\x7b' :: tail) : Shut [c] rest := by
  intro position
  constructor
  · intro opens
    cases position with
    | zero =>
        obtain ⟨tail, stands⟩ := opens.2
        obtain ⟨same, others⟩ := List.cons.inj stands
        exact absurd others.symm (unopened tail same.symm)
    | succ later => exact ⟨later, Nat.add_comm later 1, (opens_behind c rest plain later).mp opens⟩
  · rintro ⟨later, rfl, opens⟩
    rw [List.length_singleton, Nat.add_comm]
    exact (opens_behind c rest plain later).mpr opens

theorem shut_free (front rest : List Char) (plain : '\\' ∉ front) (unopened : '$' ∉ front) :
    Shut front rest := by
  induction front with
  | nil => exact shut_nothing rest
  | cons c tail ih =>
      simp only [List.mem_cons, not_or] at plain unopened
      have first := shut_plain c (tail ++ rest) (Ne.symm plain.1)
        fun _ same => absurd same.symm unopened.1
      exact first.append (ih plain.2 unopened.2)

theorem escaped_brace (chars after : List Char) (stands : escapeTemplateChars chars = '\x7b' :: after) :
    ∃ rest, chars = '\x7b' :: rest := by
  cases chars with
  | nil => cases stands
  | cons c rest =>
      by_cases opening : c = '$' ∧ ∃ tail, rest = '\x7b' :: tail
      · obtain ⟨rfl, tail, rfl⟩ := opening
        cases stands
      · rw [escape_template_cons c rest fun tail same next => opening ⟨same, tail, next⟩] at stands
        split at stands
        · cases stands
        · exact ⟨rest, by rw [(List.cons.inj stands).1]⟩

-- Where an escaped text ends, a brace may not follow: it might end with a dollar sign.
theorem shut_text (chars rest : List Char) (braceless : rest.head? ≠ some '\x7b') :
    Shut (escapeTemplateChars chars) rest := by
  induction chars using escapeTemplateChars.induct with
  | case1 => exact shut_nothing rest
  | case2 tail ih =>
      have brace := shut_plain '\x7b' (escapeTemplateChars tail ++ rest) (by decide)
        fun _ same => absurd same (by decide)
      exact (shut_escaped '$' _).append (brace.append ih)
  | case3 tail unopened ih =>
      rw [escape_template_cons _ tail unopened, if_pos (Or.inl rfl)]
      exact (shut_escaped '\\' _).append ih
  | case4 tail unopened _ ih =>
      rw [escape_template_cons _ tail unopened, if_pos (Or.inr rfl)]
      exact (shut_escaped '\x60' _).append ih
  | case5 c tail unopened backslash backquote ih =>
      rw [escape_template_cons c tail unopened, if_neg (not_or.mpr ⟨backslash, backquote⟩)]
      refine Shut.append (shut_plain c _ backslash fun after same stands => ?_) ih
      cases escaped : escapeTemplateChars tail with
      | nil =>
          rw [escaped, List.nil_append] at stands
          exact braceless (by rw [stands]; rfl)
      | cons first others =>
          rw [escaped, List.cons_append] at stands
          rw [(List.cons.inj stands).1] at escaped
          obtain ⟨next, brace⟩ := escaped_brace tail others escaped
          exact unopened next same brace

theorem token_tail_free (scope : Scope) (name : String)
    (identifier : Text.isIdentifier name.toList = true) (c : Char)
    (foreign : Text.continuesIdentifier c = false) (other : c ∉ ['\x7b', '.', '\x7d']) :
    c ∉ '\x7b' :: (scope.name.toList ++ '.' :: (name.toList ++ ['\x7d'])) := by
  have letter : Text.isLetter c = false := by
    simp only [Text.continuesIdentifier, Bool.or_eq_false_iff] at foreign
    exact foreign.1.1
  simp only [List.mem_cons, List.not_mem_nil, or_false, not_or] at other
  simp [scope_free scope c letter, identifier_free _ identifier c foreign, other]

theorem opens_token (token rest : List Char) (target : Reference) (one : IsToken token target)
    (position : Nat) :
    Opens (token ++ rest) position ↔
      position = 0 ∨ ∃ later, position = token.length + later ∧ Opens rest later := by
  obtain ⟨scope, name, _, identifier, rfl⟩ := one
  have shut := shut_free ('\x7b' :: (scope.name.toList ++ '.' :: (name.toList ++ ['\x7d']))) rest
    (token_tail_free scope name identifier '\\' (by decide) (by decide))
    (token_tail_free scope name identifier '$' (by decide) (by decide))
  cases position with
  | zero => exact ⟨fun _ => Or.inl rfl, fun _ => ⟨rfl, _, rfl⟩⟩
  | succ position =>
      have length : (tokenChars scope name).length =
          ('\x7b' :: (scope.name.toList ++ '.' :: (name.toList ++ ['\x7d']))).length + 1 := rfl
      rw [length, tokenChars, List.cons_append, opens_behind '$' _ (by decide), shut position]
      constructor
      · rintro ⟨later, rfl, opens⟩
        exact Or.inr ⟨later, Nat.add_right_comm _ later 1, opens⟩
      · rintro (none | ⟨later, same, opens⟩)
        · cases none
        · exact ⟨later, by omega, opens⟩

namespace Segment

def shownChars (segments : List Segment) : List Char :=
  segments.flatMap fun segment => segment.display.toList

theorem shown_chars_cons (segment : Segment) (rest : List Segment) :
    shownChars (segment :: rest) = segment.display.toList ++ shownChars rest :=
  List.flatMap_cons

theorem text_shown (content : String) :
    (text content).display.toList = escapeTemplateChars content.toList :=
  String.toList_ofList

theorem token_shown (token : List Char) (target : Reference) (one : IsToken token target) :
    (reference target).display.toList = token :=
  token_written token target one

structure Template (segments : List Segment) : Prop where
  tokens : ∀ target, reference target ∈ segments → ∃ token, IsToken token target
  apart : segments.IsChain fun one next => one.reference?.isSome ∨ next.reference?.isSome

theorem Template.rest {segment : Segment} {rest : List Segment} (template : Template (segment :: rest)) :
    Template rest := by
  refine ⟨fun target member => template.tokens target (List.mem_cons_of_mem _ member), ?_⟩
  cases template.apart with
  | singleton => exact .nil
  | cons_cons _ chain => exact chain

theorem text_followed (content : String) (rest : List Segment)
    (template : Template (text content :: rest)) :
    (shownChars rest ++ ['\x60']).head? ≠ some '\x7b' := by
  cases rest with
  | nil => simp [shownChars]
  | cons next others =>
      cases next with
      | reference target => simp [shownChars, display]
      | text other =>
          cases template.apart with
          | cons_cons referring _ => simp [reference?] at referring

theorem opens_segments_iff (segments : List Segment) (template : Template segments) (position : Nat) :
    Opens (shownChars segments ++ ['\x60']) position ↔
      ∃ before target after, segments = before ++ reference target :: after ∧
        position = (shownChars before).length := by
  induction segments generalizing position with
  | nil =>
      have shut := shut_free ['\x60'] [] (by decide) (by decide) position
      rw [List.append_nil] at shut
      constructor
      · intro opens
        obtain ⟨later, _, nothing⟩ := shut.mp opens
        simp [Opens] at nothing
      · rintro ⟨before, target, after, split, _⟩
        simp at split
  | cons segment rest ih =>
      rw [shown_chars_cons, List.append_assoc]
      cases segment with
      | text content =>
          rw [text_shown, shut_text content.toList _ (text_followed content rest template) position]
          simp only [ih template.rest]
          constructor
          · rintro ⟨later, rfl, before, target, after, rfl, rfl⟩
            refine ⟨text content :: before, target, after, rfl, ?_⟩
            rw [shown_chars_cons, text_shown, List.length_append]
          · rintro ⟨before, target, after, split, same⟩
            cases before with
            | nil => cases split
            | cons first before =>
                cases split
                rw [shown_chars_cons, text_shown, List.length_append] at same
                exact ⟨_, same, before, target, after, rfl, rfl⟩
      | reference target =>
          obtain ⟨token, one⟩ := template.tokens target List.mem_cons_self
          have shown := token_shown token target one
          rw [shown, opens_token token _ target one]
          simp only [ih template.rest]
          constructor
          · rintro (rfl | ⟨later, rfl, before, other, after, rfl, rfl⟩)
            · exact ⟨[], target, rest, rfl, rfl⟩
            · refine ⟨reference target :: before, other, after, rfl, ?_⟩
              rw [shown_chars_cons, shown, List.length_append]
          · rintro ⟨before, other, after, split, same⟩
            cases before with
            | nil => exact Or.inl same
            | cons first before =>
                cases split
                rw [shown_chars_cons, shown, List.length_append] at same
                exact Or.inr ⟨_, same, before, other, after, rfl, rfl⟩

theorem token_read (token rest : List Char) (target : Reference) (one : IsToken token target) :
    readTemplate (token ++ rest) = (readTemplate rest).map (putBefore token) := by
  obtain ⟨scope, name, _, identifier, rfl⟩ := one
  refine read_free id '\x60' _ rest ?_ ?_
  · exact List.not_mem_cons_of_ne_of_not_mem (by decide)
      (token_tail_free scope name identifier '\\' (by decide) (by decide))
  · exact List.not_mem_cons_of_ne_of_not_mem (by decide)
      (token_tail_free scope name identifier '\x60' (by decide) (by decide))

theorem segments_read (segments : List Segment) (template : Template segments) (rest : List Char) :
    readTemplate (shownChars segments ++ rest) =
      (readTemplate rest).map (putBefore (writtenChars segments)) := by
  induction segments with
  | nil => cases read : readTemplate rest <;> simp [shownChars, writtenChars, putBefore, read]
  | cons segment others ih =>
      have first : ∀ after, readTemplate (segment.display.toList ++ after) =
          (readTemplate after).map (putBefore segment.written.toList) := by
        intro after
        cases segment with
        | text content =>
            rw [text_shown, template_chars_read]
            rfl
        | reference target =>
            obtain ⟨token, one⟩ := template.tokens target List.mem_cons_self
            rw [token_shown token target one, token_written token target one,
              token_read token after target one]
      rw [shown_chars_cons, List.append_assoc, first, ih template.rest, put_before_twice]
      rfl

theorem of_text_template (raw : String) : Template (ofText raw) := by
  have tokenised := of_text_tokenised raw
  refine ⟨fun target member => ?_, tokenised.separated.apart⟩
  obtain ⟨place, there, same⟩ : ∃ place ∈ places 0 (ofText raw), place.2 = target := by
    rw [← List.mem_map, places_references]
    exact List.mem_filterMap.mpr ⟨_, member, rfl⟩
  obtain ⟨token, one, _⟩ := (tokenised.exact place.1 place.2).mp there
  exact ⟨token, same ▸ one⟩

end Segment

namespace Expression

def readDisplay : List Char → Option (List Char)
  | '\x27' :: rest => (readLiteral rest).map Prod.fst
  | '\x60' :: rest => (readTemplate rest).map Prod.fst
  | name => some ('$' :: '\x7b' :: (name ++ ['\x7d']))

theorem of_text_shape (raw : String) :
    ofText raw = .literal (string raw) ∨
      (∃ target, ofText raw = .lookup target ∧ IsToken raw.toList target) ∨
      ofText raw = .template (Segment.ofText raw) := by
  unfold ofText
  dsimp only
  split
  · rename_i target single
    exact Or.inr (Or.inl ⟨target, rfl, (single_token_iff raw target).mp single⟩)
  · split
    · exact Or.inr (Or.inr rfl)
    · exact Or.inl rfl

theorem literal_display (raw : String) :
    (literal (string raw)).display.toList = '\x27' :: ((escapeLiteral raw).toList ++ ['\x27']) := by
  simp [display, literalText]

theorem template_display (segments : List Segment) :
    (template segments).display.toList = '\x60' :: (Segment.shownChars segments ++ ['\x60']) := by
  simp [display, Segment.shownChars, String.toList_join, List.flatMap_map]

theorem lookup_display (chars : List Char) (target : Reference) (token : IsToken chars target) :
    chars = '$' :: '\x7b' :: ((lookup target).display.toList ++ ['\x7d']) := by
  obtain ⟨scope, name, rfl, _, rfl⟩ := token
  simp [display, Reference.text, Text.joinWith, tokenChars]

theorem lookup_begins (target : Reference) (tail : List Char) :
    (lookup target).display.toList ≠ '\x27' :: tail ∧ (lookup target).display.toList ≠ '\x60' :: tail := by
  rcases target with ⟨scope, path⟩
  cases scope <;> simp [display, Reference.text, Scope.name]

theorem display_undone (raw : String) : readDisplay (ofText raw).display.toList = some raw.toList := by
  rcases of_text_shape raw with literal | ⟨target, lookup, token⟩ | template
  · rw [literal, literal_display, readDisplay, literal_read]
    rfl
  · have written := lookup_display raw.toList target token
    rw [lookup, written]
    unfold readDisplay
    split
    · rename_i rest begins
      exact absurd begins (lookup_begins target rest).1
    · rename_i rest begins
      exact absurd begins (lookup_begins target rest).2
    · rfl
  · have written := (Segment.of_text_tokenised raw).written
    have closed : readTemplate ['\x60'] = some ([], []) := rfl
    rw [template, template_display, readDisplay,
      Segment.segments_read _ (Segment.of_text_template raw), closed, written]
    simp [putBefore]

-- The text of a text's expression: it and its escapes can be undone, and where it is a template, a
-- reference begins wherever something opens in it.
structure Displayed (raw : String) : Prop where
  undone : readDisplay (ofText raw).display.toList = some raw.toList
  literal : ∀ rest,
    readLiteral ((escapeLiteral raw).toList ++ '\x27' :: rest) = some (raw.toList, rest)
  template : ∀ rest,
    readTemplate ((escapeTemplate raw).toList ++ '\x60' :: rest) = some (raw.toList, rest)
  opened : ∀ segments, ofText raw = .template segments → ∀ position,
    Opens (ofText raw).display.toList position ↔
      ∃ before target after, segments = before ++ .reference target :: after ∧
        position = (Segment.shownChars before).length + 1
  referring : ∀ segments, ofText raw = .template segments → ∀ position,
    Opens (ofText raw).display.toList position →
      ∃ target ∈ (ofText raw).references, TokenAt (ofText raw).display.toList position target

theorem template_opens_iff (segments : List Segment) (template : Segment.Template segments)
    (position : Nat) :
    Opens (Expression.template segments).display.toList position ↔
      ∃ before target after, segments = before ++ .reference target :: after ∧
        position = (Segment.shownChars before).length + 1 := by
  rw [template_display]
  cases position with
  | zero =>
      constructor
      · rintro ⟨_, stands⟩
        simp at stands
      · rintro ⟨_, _, _, _, none⟩
        cases none
  | succ position =>
      rw [opens_behind '\x60' _ (by decide), Segment.opens_segments_iff segments template]
      simp

theorem reference_stands (before after : List Segment) (target : Reference)
    (template : Segment.Template (before ++ .reference target :: after)) :
    TokenAt (Expression.template (before ++ .reference target :: after)).display.toList
      ((Segment.shownChars before).length + 1) target := by
  obtain ⟨token, one⟩ := template.tokens target (by simp)
  have shown := Segment.token_shown token target one
  have split : Segment.shownChars (before ++ .reference target :: after) =
      Segment.shownChars before ++ (token ++ Segment.shownChars after) := by
    rw [← shown, ← Segment.shown_chars_cons, Segment.shownChars, List.flatMap_append,
      ← Segment.shownChars, ← Segment.shownChars]
  refine ⟨token, one, Segment.shownChars after ++ ['\x60'], ?_⟩
  rw [template_display, split, List.drop_succ_cons, List.append_assoc, List.drop_left,
    List.append_assoc]

theorem displayed (raw : String) : Displayed raw := by
  have template := Segment.of_text_template raw
  have same : ∀ segments, ofText raw = .template segments → segments = Segment.ofText raw := by
    intro segments shape
    rcases of_text_shape raw with literal | ⟨target, lookup, _⟩ | template
    · rw [literal] at shape
      cases shape
    · rw [lookup] at shape
      cases shape
    · rw [template] at shape
      cases shape
      rfl
  refine ⟨display_undone raw, literal_read raw, template_read raw, fun segments shape position => ?_,
    fun segments shape position opens => ?_⟩
  · rw [← same segments shape] at template
    rw [shape]
    exact template_opens_iff segments template position
  · rw [← same segments shape] at template
    rw [shape] at opens ⊢
    obtain ⟨before, target, after, rfl, rfl⟩ := (template_opens_iff segments template position).mp opens
    refine ⟨target, ?_, reference_stands before after target template⟩
    exact List.mem_filterMap.mpr ⟨.reference target, by simp, rfl⟩

theorem text_shown_apart (raw : String) (value : Json) (plain : value.string? = none) :
    (ofText raw).display ≠ (literal value).display := by
  intro same
  have chars : (ofText raw).display.toList = value.chars ++ [] := by
    rw [same, List.append_nil]
    exact literal_chars_plain value plain
  rcases of_text_shape raw with literal | ⟨target, lookup, token⟩ | template
  · rw [literal, literal_display] at chars
    exact begins_otherwise '\x27' (by decide) value _ _ chars.symm
  · rw [lookup] at chars
    rcases target with ⟨scope, path⟩
    cases scope with
    | input =>
        simp only [display, Reference.text, Scope.name, String.toList_append] at chars
        exact begins_otherwise 'i' (by decide) value _ _ chars.symm
    | constants =>
        simp only [display, Reference.text, Scope.name, String.toList_append] at chars
        exact begins_otherwise 'c' (by decide) value _ _ chars.symm
    | extract =>
        -- A number may go on with an `e`, but not with the letter behind it.
        simp only [display, Reference.text, Scope.name, String.toList_append, List.append_nil] at chars
        obtain ⟨c, tail, begins, marked⟩ := chars_begin value
        rw [begins] at chars
        have numeric : value.isNumber = true := by
          rw [← mark_number_iff, ← marked, ← (List.cons.inj chars).1]
          decide
        have numeral := number_numerals value numeric 'x' (by
          rw [← Json.chars, begins, ← chars]
          simp)
        exact absurd numeral (by decide)
  · rw [template, template_display] at chars
    exact begins_otherwise '\x60' (by decide) value _ _ chars.symm

theorem of_value_plain (value : Json) (plain : value.string? = none) : ofValue value = literal value := by
  cases value with
  | string text => cases plain
  | _ => rfl

theorem display_unambiguous (one other : Json) (apart : SpelledApart (one.numbers ++ other.numbers)) :
    ((ofValue one).display = (ofValue other).display → one = other) ∧ ∀ raw, Displayed raw := by
  refine ⟨fun same => ?_, displayed⟩
  cases shape : one.string? with
  | some raw =>
      have text := string_of_text one raw shape
      subst text
      cases otherShape : other.string? with
      | some otherRaw =>
          have text := string_of_text other otherRaw otherShape
          subst text
          have read := display_undone raw
          rw [← ofValue, same, ofValue, display_undone otherRaw, Option.some.injEq] at read
          rw [String.toList_injective read]
      | none =>
          rw [of_value_plain other otherShape] at same
          exact absurd same (text_shown_apart raw other otherShape)
  | none =>
      rw [of_value_plain one shape] at same
      cases otherShape : other.string? with
      | some otherRaw =>
          have text := string_of_text other otherRaw otherShape
          subst text
          exact absurd same.symm (text_shown_apart otherRaw one shape)
      | none =>
          rw [of_value_plain other otherShape] at same
          have told := literal_text_told _ apart one other (fun _ => List.mem_append_left _)
            fun _ => List.mem_append_right _
          exact (told [] [] nofun nofun (congrArg (fun text => text.toList ++ []) same)).1

-- A price as a number and as a text, and a backslash right before a reference.
theorem display_unambiguous_price :
    SpelledApart [integer 5] ∧ (ofValue (string "5")).display ≠ (ofValue (integer 5)).display ∧
      (ofText "costs \\$\x7binput.price\x7d").display = "\x60costs \\\\$\x7binput.price\x7d\x60" ∧
      Displayed "costs \\$\x7binput.price\x7d" := by
  have apart : SpelledApart [integer 5] := by
    intro one listed other otherListed _
    rw [List.mem_singleton.mp listed, List.mem_singleton.mp otherListed]
  have unambiguous := display_unambiguous (string "5") (integer 5) apart
  refine ⟨apart, fun same => ?_, rfl, unambiguous.2 _⟩
  cases unambiguous.1 same

end Expression

end BrowserFlow
