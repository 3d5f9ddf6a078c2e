import Mathlib.Computability.Language
import BrowserFlow.Authoring.Violation
import BrowserFlow.Proofs.Text.Pieces
/-! The languages of the patterns, each put together as its source writes it, and the tests that decide
them. -/
set_option autoImplicit false

namespace BrowserFlow.Authoring.Pattern

open scoped Computability

def between (first last : Char) : Language Char :=
  {word | ∃ c, first ≤ c ∧ c ≤ last ∧ word = [c]}

def exactly (text : String) : Language Char :=
  {word | word = text.toList}

def digit : Language Char := between '0' '9'

def identifierStart : Language Char := between 'A' 'Z' + between 'a' 'z' + exactly "_"

def identifier : Language Char := identifierStart * (identifierStart + digit)∗

def smallOrDigit : Language Char := between 'a' 'z' + digit

def scopeName : Language Char := exactly "extract" + exactly "input" + exactly "constants"

def segment : Language Char := identifier + digit * digit∗

def language : Pattern → Language Char
  | workflowName => smallOrDigit * (smallOrDigit + exactly "-")∗
  | conditionField => scopeName * exactly "." * identifier * (exactly "." * segment)∗
  | outputKey => identifier

def oneOf (test : Char → Bool) : Language Char :=
  {word | ∃ c, test c = true ∧ word = [c]}

theorem between_one (first last : Char) :
    between first last = oneOf fun c => decide (first ≤ c) && decide (c ≤ last) := by
  ext word
  simp [between, oneOf, and_assoc]

theorem exactly_one (c : Char) (text : String) (single : text.toList = [c]) :
    exactly text = oneOf (· == c) := by
  ext word
  simp [exactly, oneOf, single]

theorem one_or_one (left right : Char → Bool) :
    oneOf left + oneOf right = oneOf fun c => left c || right c := by
  ext word
  simp only [oneOf, Bool.or_eq_true]
  constructor
  · rintro (⟨c, passed, rfl⟩ | ⟨c, passed, rfl⟩)
    · exact ⟨c, Or.inl passed, rfl⟩
    · exact ⟨c, Or.inr passed, rfl⟩
  · rintro ⟨c, passed | passed, rfl⟩
    · exact Or.inl ⟨c, passed, rfl⟩
    · exact Or.inr ⟨c, passed, rfl⟩

theorem one_star (test : Char → Bool) (word : List Char) :
    word ∈ (oneOf test)∗ ↔ word.all test = true := by
  rw [Language.mem_kstar, List.all_eq_true]
  constructor
  · rintro ⟨parts, rfl, passed⟩ c member
    obtain ⟨part, inParts, inPart⟩ := List.mem_flatten.mp member
    obtain ⟨d, good, rfl⟩ := passed part inParts
    simpa [List.mem_singleton.mp inPart] using good
  · intro passed
    refine ⟨word.map fun c => [c], by simp [← List.flatMap_def], ?_⟩
    intro part member
    obtain ⟨c, inWord, rfl⟩ := List.mem_map.mp member
    exact ⟨c, passed c inWord, rfl⟩

theorem one_then (test : Char → Bool) (rest : Language Char) (word : List Char) :
    word ∈ oneOf test * rest ↔ ∃ c tail, word = c :: tail ∧ test c = true ∧ tail ∈ rest := by
  rw [Language.mem_mul]
  constructor
  · rintro ⟨_, ⟨c, passed, rfl⟩, tail, member, rfl⟩
    exact ⟨c, tail, rfl, passed, member⟩
  · rintro ⟨c, tail, rfl, passed, member⟩
    exact ⟨[c], ⟨c, passed, rfl⟩, tail, member, rfl⟩

theorem digit_one : digit = oneOf Text.isDigit := by
  rw [digit, between_one]
  rfl

theorem identifier_start_one : identifierStart = oneOf Text.startsIdentifier := by
  rw [identifierStart, between_one, between_one, exactly_one '_' "_" rfl, one_or_one, one_or_one]
  congr 1
  funext c
  simp [Text.startsIdentifier, Text.isLetter, Bool.or_comm]

theorem small_or_digit_one : smallOrDigit = oneOf startsName := by
  rw [smallOrDigit, between_one, digit_one, one_or_one]
  rfl

theorem one_then_star (first later : Char → Bool) (word : List Char) :
    word ∈ oneOf first * (oneOf later)∗ ↔
      ∃ c rest, word = c :: rest ∧ first c = true ∧ rest.all later = true := by
  rw [one_then]
  simp only [one_star]

theorem identifier_iff (word : List Char) : word ∈ identifier ↔ Text.isIdentifier word = true := by
  have later : (fun c => Text.startsIdentifier c || Text.isDigit c) = Text.continuesIdentifier := by
    funext c
    simp [Text.startsIdentifier, Text.continuesIdentifier, Bool.or_comm, Bool.or_left_comm]
  rw [identifier, identifier_start_one, digit_one, one_or_one, one_then_star, later]
  cases word <;> simp [Text.isIdentifier]

theorem digits_iff (word : List Char) : word ∈ digit * digit∗ ↔ Text.isDigits word = true := by
  rw [digit_one, one_then_star]
  cases word <;> simp [Text.isDigits]

theorem workflow_name_iff (word : List Char) :
    word ∈ smallOrDigit * (smallOrDigit + exactly "-")∗ ↔ isWorkflowName word = true := by
  rw [small_or_digit_one, exactly_one '-' "-" rfl, one_or_one, one_then_star]
  cases word <;> simp [isWorkflowName]

theorem segment_iff (word : List Char) :
    word ∈ segment ↔ Reference.isSegment (String.ofList word) = true := by
  rw [segment, Language.mem_add, identifier_iff, digits_iff]
  simp [Reference.isSegment, or_comm]

theorem exactly_iff (text : String) (word : List Char) :
    word ∈ exactly text ↔ String.ofList word = text := by
  constructor
  · rintro rfl
    exact String.ofList_toList
  · rintro rfl
    exact String.toList_ofList.symm

theorem scope_iff (word : List Char) :
    word ∈ scopeName ↔ (Scope.ofName? (String.ofList word)).isSome = true := by
  rw [scopeName, Language.mem_add, Language.mem_add, exactly_iff, exactly_iff, exactly_iff]
  simp only [Scope.ofName?, Scope.named, Scope.all, Scope.name, List.map_cons, List.map_nil,
    Entries.find?]
  split
  · simp [*]
  · split
    · simp [*]
    · split <;> simp [eq_comm, *]

theorem behind_points_iff (segment : Language Char) (word : List Char) :
    word ∈ (exactly "." * segment)∗ ↔
      ∃ pieces : List (List Char), word = pieces.flatMap ('.' :: ·) ∧
        ∀ piece ∈ pieces, piece ∈ segment := by
  rw [exactly_one '.' "." rfl, Language.mem_kstar]
  constructor
  · rintro ⟨parts, rfl, all⟩
    induction parts with
    | nil => exact ⟨[], rfl, by simp⟩
    | cons part rest ih =>
        obtain ⟨pieces, written, inSegment⟩ := ih fun other member =>
          all other (List.mem_cons_of_mem _ member)
        obtain ⟨c, piece, rfl, point, member⟩ :=
          (one_then _ _ _).mp (all part List.mem_cons_self)
        refine ⟨piece :: pieces, ?_, ?_⟩
        · simp [written, beq_iff_eq.mp point]
        · simpa using And.intro member inSegment
  · rintro ⟨pieces, rfl, all⟩
    refine ⟨pieces.map ('.' :: ·), by rw [List.flatMap_def], ?_⟩
    intro part member
    obtain ⟨piece, inPieces, rfl⟩ := List.mem_map.mp member
    exact (one_then _ _ _).mpr ⟨'.', piece, rfl, rfl, all piece inPieces⟩

theorem segment_continues (word : List Char)
    (valid : Reference.isSegment (String.ofList word) = true) :
    ∀ c ∈ word, Text.continuesIdentifier c = true := by
  simp only [Reference.isSegment, String.toList_ofList, Bool.or_eq_true] at valid
  cases valid with
  | inr identifier => exact Text.identifier_continues word identifier
  | inl digits => exact Text.digits_continue word digits

theorem identifier_point_free (word : List Char) (valid : Text.isIdentifier word = true) :
    '.' ∉ word :=
  Text.free_of_class _ word (Text.identifier_continues word valid) '.' (by decide)

theorem segment_point_free (word : List Char)
    (valid : Reference.isSegment (String.ofList word) = true) : '.' ∉ word :=
  Text.free_of_class _ word (segment_continues word valid) '.' (by decide)

theorem scope_point_free (word : List Char) (valid : word ∈ scopeName) : '.' ∉ word := by
  rcases valid with (rfl | rfl) | rfl <;> decide

theorem condition_field_pieces (word scope name : List Char) (pieces : List (List Char))
    (cut : Text.splitAt '.' word = scope :: name :: pieces) :
    isConditionField word = true ↔
      (scope ∈ scopeName ∧ name ∈ identifier) ∧ ∀ piece ∈ pieces, piece ∈ segment := by
  simp [isConditionField, cut, scope_iff, identifier_iff, segment_iff]

theorem condition_field_iff (word : List Char) :
    word ∈ conditionField.language ↔ isConditionField word = true := by
  constructor
  · intro member
    obtain ⟨_, ⟨_, ⟨scope, inScope, _, rfl, rfl⟩, name, inName, rfl⟩, tail, inTail, rfl⟩ := member
    obtain ⟨pieces, rfl, inSegment⟩ := (behind_points_iff _ tail).mp inTail
    have free : ∀ piece ∈ name :: pieces, '.' ∉ piece := by
      intro piece inPieces
      cases List.mem_cons.mp inPieces with
      | inl same => exact same ▸ identifier_point_free name ((identifier_iff name).mp inName)
      | inr later => exact segment_point_free piece ((segment_iff piece).mp (inSegment piece later))
    refine (condition_field_pieces _ scope name pieces ?_).mpr ⟨⟨inScope, inName⟩, inSegment⟩
    refine (Text.split_at_iff '.' _ scope (name :: pieces)).mpr ⟨?_, scope_point_free scope inScope, free⟩
    simp
  · intro accepted
    obtain ⟨scope, others, cut⟩ := Text.split_at_nonempty '.' word
    cases others with
    | nil => simp [isConditionField, cut] at accepted
    | cons name pieces =>
        obtain ⟨⟨inScope, inName⟩, inSegment⟩ :=
          (condition_field_pieces word scope name pieces cut).mp accepted
        have written := (Text.split_at_written '.' word scope (name :: pieces) cut).1
        have behind := (behind_points_iff segment _).mpr ⟨pieces, rfl, inSegment⟩
        have point : ['.'] ∈ exactly "." := rfl
        have whole := Language.append_mem_mul (Language.append_mem_mul
          (Language.append_mem_mul inScope point) inName) behind
        simpa [written, language] using whole

theorem accepts_iff (pattern : Pattern) (text : String) :
    pattern.accepts text = true ↔ text.toList ∈ pattern.language := by
  cases pattern with
  | workflowName => exact (workflow_name_iff text.toList).symm
  | conditionField => exact (condition_field_iff text.toList).symm
  | outputKey => exact (identifier_iff text.toList).symm

end BrowserFlow.Authoring.Pattern
