import BrowserFlow.Proofs.Expression
/-! Authored texts and their tokens. The expression of a text can be written back to the text, its
references are the tokens of the text at their places, and its shape tells how many there are. -/
set_option autoImplicit false

namespace BrowserFlow

open Json

def tokenChars (scope : Scope) (name : String) : List Char :=
  '$' :: '\x7b' :: (scope.name.toList ++ '.' :: (name.toList ++ ['\x7d']))

def IsToken (chars : List Char) (reference : Reference) : Prop :=
  ∃ scope name, reference = ⟨scope, [name]⟩ ∧ Text.isIdentifier name.toList = true ∧
    chars = tokenChars scope name

def TokenAt (chars : List Char) (position : Nat) (reference : Reference) : Prop :=
  ∃ token, IsToken token reference ∧ token <+: chars.drop position

theorem token_head_iff (chars : List Char) (reference : Reference) :
    TokenAt chars 0 reference ↔ ∃ after, Segment.readToken chars = some (reference, after) := by
  simp only [Segment.read_token_iff, Meaning.token_iff]
  constructor
  · rintro ⟨_, ⟨scope, name, rfl, identifier, rfl⟩, after, written⟩
    refine ⟨after, scope, name, rfl, ?_, identifier⟩
    rw [List.drop_zero] at written
    rw [← written]
    simp [tokenChars]
  · rintro ⟨after, scope, name, rfl, rfl, identifier⟩
    exact ⟨_, ⟨scope, name, rfl, identifier, rfl⟩, after, by simp [tokenChars]⟩

theorem token_at_iff (chars : List Char) (position : Nat) (reference : Reference) :
    TokenAt chars position reference ↔
      ∃ after, Segment.readToken (chars.drop position) = some (reference, after) :=
  token_head_iff (chars.drop position) reference

theorem token_begins (chars : List Char) (position : Nat) (reference : Reference)
    (token : TokenAt chars position reference) : chars[position]? = some '$' := by
  obtain ⟨_, ⟨scope, name, _, _, rfl⟩, after, written⟩ := token
  rw [← List.head?_drop, ← written]
  rfl

theorem token_inside (scope : Scope) (name : String) (identifier : Text.isIdentifier name.toList = true)
    (position : Nat) : (tokenChars scope name)[position + 1]? ≠ some '$' := by
  have free : '$' ∉ '\x7b' :: (scope.name.toList ++ '.' :: (name.toList ++ ['\x7d'])) := by
    simp [scope_free scope '$' (by decide), identifier_free _ identifier '$' (by decide)]
  intro found
  rw [tokenChars, List.getElem?_cons_succ] at found
  exact free (List.mem_of_getElem? found)

theorem token_after (token after : List Char) (target : Reference) (first : IsToken token target)
    (position : Nat) (reference : Reference) :
    TokenAt (token ++ after) position reference ↔
      (position = 0 ∧ reference = target) ∨
        ∃ later, position = token.length + later ∧ TokenAt after later reference := by
  obtain ⟨scope, name, rfl, identifier, rfl⟩ := first
  constructor
  · intro here
    cases position with
    | zero =>
        -- The token at the head is the one that is written there.
        obtain ⟨rest, read⟩ := (token_head_iff _ _).mp here
        have same : Segment.readToken (tokenChars scope name ++ after) =
            some (⟨scope, [name]⟩, after) :=
          (Segment.read_token_iff _ _ _).mpr ⟨scope, name, rfl,
            (Meaning.token_iff _ _ _ _).mpr ⟨by simp [tokenChars], identifier⟩⟩
        rw [same] at read
        cases read
        exact Or.inl ⟨rfl, rfl⟩
    | succ position =>
        refine Or.inr ?_
        by_cases inside : position + 1 < (tokenChars scope name).length
        · have begins := token_begins _ _ _ here
          rw [List.getElem?_append_left inside] at begins
          exact absurd begins (token_inside scope name identifier position)
        · obtain ⟨later, split⟩ := Nat.exists_eq_add_of_le (Nat.le_of_not_lt inside)
          refine ⟨later, split, ?_⟩
          unfold TokenAt at here ⊢
          rwa [split, ← List.drop_drop, List.drop_left] at here
  · rintro (⟨rfl, rfl⟩ | ⟨later, rfl, here⟩)
    · exact ⟨_, ⟨scope, name, rfl, identifier, rfl⟩, after, rfl⟩
    · unfold TokenAt at here ⊢
      rwa [← List.drop_drop, List.drop_left]

theorem token_behind_char (c : Char) (rest : List Char) (plain : Segment.readToken (c :: rest) = none)
    (position : Nat) (reference : Reference) :
    TokenAt (c :: rest) position reference ↔
      ∃ later, position = later + 1 ∧ TokenAt rest later reference := by
  cases position with
  | zero =>
      constructor
      · intro here
        obtain ⟨after, read⟩ := (token_head_iff _ _).mp here
        rw [plain] at read
        cases read
      · rintro ⟨later, same, _⟩
        cases same
  | succ position =>
      constructor
      · exact fun here => ⟨position, rfl, here⟩
      · rintro ⟨later, same, here⟩
        cases same
        exact here

namespace Segment

def places (start : Nat) : List Segment → List (Nat × Reference)
  | [] => []
  | text content :: rest => places (start + content.length) rest
  | reference target :: rest =>
    (start, target) :: places (start + (reference target).written.length) rest

structure Separated (segments : List Segment) : Prop where
  full : text "" ∉ segments
  apart : segments.IsChain fun one next => one.reference?.isSome ∨ next.reference?.isSome

def writtenChars (segments : List Segment) : List Char :=
  segments.flatMap fun segment => segment.written.toList

theorem token_written (token : List Char) (target : Reference) (one : IsToken token target) :
    (reference target).written.toList = token := by
  obtain ⟨scope, name, rfl, _, rfl⟩ := one
  simp [written, Reference.text, Text.joinWith, tokenChars]

theorem places_references (start : Nat) (segments : List Segment) :
    (places start segments).map Prod.snd = segments.filterMap reference? := by
  induction segments generalizing start with
  | nil => rfl
  | cons segment rest ih =>
      cases segment with
      | text content => exact ih _
      | reference target => rw [places, List.map_cons, ih]; rfl

theorem places_shifted (start more : Nat) (segments : List Segment) :
    places (more + start) segments =
      (places start segments).map fun place => (more + place.1, place.2) := by
  induction segments generalizing start with
  | nil => rfl
  | cons segment rest ih =>
      cases segment with
      | text content => rw [places, places, Nat.add_assoc, ih]
      | reference target => rw [places, places, Nat.add_assoc, ih, List.map_cons]

theorem places_above (start : Nat) (segments : List Segment) :
    ∀ place ∈ places start segments, start ≤ place.1 := by
  induction segments generalizing start with
  | nil => simp [places]
  | cons segment rest ih =>
      intro place member
      cases segment with
      | text content => exact Nat.le_trans (Nat.le_add_right _ _) (ih _ place member)
      | reference target =>
          cases List.mem_cons.mp member with
          | inl here => rw [here]
          | inr later => exact Nat.le_trans (Nat.le_add_right _ _) (ih _ place later)

theorem places_ordered (start : Nat) (segments : List Segment) :
    ((places start segments).map Prod.fst).Pairwise (· < ·) := by
  induction segments generalizing start with
  | nil => exact List.Pairwise.nil
  | cons segment rest ih =>
      cases segment with
      | text content => exact ih _
      | reference target =>
          rw [places, List.map_cons, List.pairwise_cons]
          refine ⟨fun position member => ?_, ih _⟩
          obtain ⟨place, there, rfl⟩ := List.mem_map.mp member
          have above := places_above _ rest place there
          have long : 0 < (reference target).written.length := by
            rw [← String.length_toList]
            simp [written]
          omega

theorem places_with_text (front : List Char) (segments : List Segment) :
    places 0 (withText front segments) = places front.length segments := by
  cases front with
  | nil => rfl
  | cons c rest => simp [withText, places, Nat.add_comm]

theorem written_with_text (front : List Char) (segments : List Segment) :
    writtenChars (withText front segments) = front ++ writtenChars segments := by
  cases front with
  | nil => rfl
  | cons c rest => simp [withText, writtenChars, written]

theorem separated_reference (target : Reference) (segments : List Segment)
    (separated : Separated segments) : Separated (reference target :: segments) := by
  refine ⟨?_, ?_⟩
  · simp [separated.full]
  · cases segments with
    | nil => exact .singleton _
    | cons next rest => exact .cons_cons (Or.inl rfl) separated.apart

theorem separated_with_text (front : List Char) (segments : List Segment)
    (separated : Separated segments)
    (begins : ∀ first ∈ segments.head?, first.reference?.isSome = true) :
    Separated (withText front segments) := by
  cases front with
  | nil => exact separated
  | cons c rest =>
      refine ⟨?_, ?_⟩
      · have content : String.ofList (c :: rest) ≠ "" := by
          intro empty
          simpa using congrArg String.toList empty
        simpa [withText, Ne.symm content] using separated.full
      · cases segments with
        | nil => exact .singleton _
        | cons next rest => exact .cons_cons (Or.inr (begins next rfl)) separated.apart

theorem read_token_head (chars after : List Char) (target : Reference)
    (read : readToken chars = some (target, after)) :
    ∃ token, IsToken token target ∧ chars = token ++ after := by
  obtain ⟨scope, name, rfl, token⟩ := (read_token_iff _ _ _).mp read
  obtain ⟨rfl, identifier⟩ := (Meaning.token_iff _ _ _ _).mp token
  exact ⟨_, ⟨scope, name, rfl, identifier, rfl⟩, by simp [tokenChars]⟩

theorem scan_tokenised (fuel : Nat) (chars : List Char) (enough : chars.length ≤ fuel) :
    (scan fuel chars).1 ++ writtenChars (scan fuel chars).2 = chars ∧
      (∀ position reference,
        (position, reference) ∈ places (scan fuel chars).1.length (scan fuel chars).2 ↔
          TokenAt chars position reference) ∧
      Separated (scan fuel chars).2 := by
  induction fuel generalizing chars with
  | zero =>
      rw [List.length_eq_zero_iff.mp (Nat.le_zero.mp enough)]
      refine ⟨rfl, fun position reference => ?_, by simp [scan], by simp [scan]⟩
      simp [scan, places, token_at_iff, readToken, splitToken]
  | succ fuel ih =>
      cases chars with
      | nil =>
          refine ⟨rfl, fun position reference => ?_, by simp [scan], by simp [scan]⟩
          simp [scan, places, token_at_iff, readToken, splitToken]
      | cons c rest =>
          cases read : readToken (c :: rest) with
          | none =>
              obtain ⟨written, exact, separated⟩ := ih rest (by simpa using enough)
              simp only [scan, read]
              refine ⟨by rw [List.cons_append, written], fun position reference => ?_, separated⟩
              rw [List.length_cons, Nat.add_comm, places_shifted, token_behind_char c rest read]
              simp only [List.mem_map, Prod.mk.injEq, Prod.exists, exact]
              constructor
              · rintro ⟨later, _, here, rfl, rfl⟩
                exact ⟨later, Nat.add_comm 1 later, here⟩
              · rintro ⟨later, rfl, here⟩
                exact ⟨later, reference, here, Nat.add_comm 1 later, rfl⟩
          | some found =>
              rcases found with ⟨target, after⟩
              obtain ⟨token, one, split⟩ := read_token_head _ _ _ read
              have long : 0 < token.length := by
                obtain ⟨_, _, _, _, rfl⟩ := one
                exact Nat.succ_pos _
              have shorter : after.length ≤ fuel := by
                have lengths := congrArg List.length split
                simp only [List.length_append, List.length_cons] at lengths enough
                omega
              obtain ⟨written, exact, separated⟩ := ih after shorter
              have token_length : (reference target).written.length = token.length := by
                rw [← String.length_toList, token_written token target one]
              simp only [scan, read, List.nil_append, List.length_nil]
              refine ⟨?_, fun position reference => ?_, ?_⟩
              · rw [writtenChars, List.flatMap_cons, token_written token target one]
                rw [← writtenChars, written_with_text, written, split]
              · rw [places, token_length, ← Nat.add_comm token.length, places_shifted,
                  places_with_text, split, token_after token after target one]
                simp only [List.mem_cons, Prod.mk.injEq, List.mem_map, Prod.exists, exact]
                refine or_congr Iff.rfl ?_
                constructor
                · rintro ⟨later, _, here, rfl, rfl⟩
                  exact ⟨later, rfl, here⟩
                · rintro ⟨later, rfl, here⟩
                  exact ⟨later, reference, here, rfl, rfl⟩
              · refine separated_reference target _ (separated_with_text _ _ separated ?_)
                intro first head
                obtain ⟨others, found⟩ := List.head?_eq_some_iff.mp (Option.mem_def.mp head)
                obtain ⟨next, rfl⟩ := scan_begins fuel after first others found
                rfl

-- The segments of an authored text: they write the text, their references are its tokens, and texts
-- stand only between references.
structure Tokenise (raw : String) (segments : List Segment) : Prop where
  written : writtenChars segments = raw.toList
  exact : ∀ position reference,
    (position, reference) ∈ places 0 segments ↔ TokenAt raw.toList position reference
  separated : Separated segments

theorem of_text_tokenised (raw : String) : Tokenise raw (ofText raw) := by
  obtain ⟨written, exact, separated⟩ := scan_tokenised raw.toList.length raw.toList (Nat.le_refl _)
  refine ⟨?_, fun position reference => ?_, ?_⟩
  · rw [ofText, written_with_text, written]
  · rw [ofText, places_with_text, exact]
  · refine separated_with_text _ _ separated fun first head => ?_
    obtain ⟨others, found⟩ := List.head?_eq_some_iff.mp (Option.mem_def.mp head)
    obtain ⟨next, rfl⟩ := scan_begins _ _ first others found
    rfl

end Segment

namespace Expression

def written : Expression → String
  | literal (string raw) => raw
  | literal value => value.compact
  | lookup target => (Segment.reference target).written
  | template segments => String.join (segments.map Segment.written)

def places : Expression → List (Nat × Reference)
  | literal _ => []
  | lookup target => [(0, target)]
  | template segments => Segment.places 0 segments

structure Tokenised (raw : String) (expression : Expression) : Prop where
  written : expression.written = raw
  references : expression.places.map Prod.snd = expression.references
  ordered : (expression.places.map Prod.fst).Pairwise (· < ·)
  exact : ∀ position reference,
    (position, reference) ∈ expression.places ↔ TokenAt raw.toList position reference
  literal : ∀ value, expression = literal value ↔
    value = string raw ∧ ∀ position reference, ¬TokenAt raw.toList position reference
  lookup : ∀ target, expression = lookup target ↔ IsToken raw.toList target
  template : (∃ segments, expression = template segments) ↔
    (∃ position reference, TokenAt raw.toList position reference) ∧
      ∀ target, ¬IsToken raw.toList target
  segments : ∀ segments, expression = Expression.template segments → 2 ≤ segments.length ∧
    (∃ target, Segment.reference target ∈ segments) ∧ Segment.Separated segments

theorem single_token_iff (raw : String) (target : Reference) :
    Segment.ofText raw = [.reference target] ↔ IsToken raw.toList target := by
  rw [Segment.of_text_single]
  constructor
  · intro read
    obtain ⟨token, one, split⟩ := Segment.read_token_head _ _ _ read
    rw [split, List.append_nil]
    exact one
  · rintro ⟨scope, name, rfl, identifier, written⟩
    refine (Segment.read_token_iff _ _ _).mpr ⟨scope, name, rfl, ?_⟩
    refine (Meaning.token_iff _ _ _ _).mpr ⟨?_, identifier⟩
    rw [written, tokenChars]

theorem token_of_whole (raw : String) (target : Reference) (whole : IsToken raw.toList target) :
    TokenAt raw.toList 0 target :=
  ⟨_, whole, by rw [List.drop_zero]⟩

theorem lookup_tokenised (raw : String) (target : Reference)
    (single : Segment.ofText raw = [.reference target]) : Tokenised raw (.lookup target) := by
  have whole := (single_token_iff raw target).mp single
  have here := token_of_whole raw target whole
  have tokenised := Segment.of_text_tokenised raw
  rw [single] at tokenised
  refine {
    written := ?_
    references := rfl
    ordered := List.pairwise_singleton _ _
    exact := tokenised.exact
    literal := fun value => ⟨fun same => ?_, fun plain => absurd here (plain.2 0 target)⟩
    lookup := fun other => ?_
    template := ⟨fun ⟨_, same⟩ => ?_, fun many => absurd whole (many.2 target)⟩
    segments := fun segments same => ?_ }
  · apply String.toList_injective
    simpa [written, Segment.writtenChars] using tokenised.written
  · cases same
  · rw [← single_token_iff, single]
    simp
  · cases same
  · cases same

theorem literal_tokenised (raw : String)
    (plain : ∀ target, Segment.reference target ∉ Segment.ofText raw) :
    Tokenised raw (.literal (string raw)) := by
  have tokenised := Segment.of_text_tokenised raw
  have none : (Segment.ofText raw).filterMap Segment.reference? = [] := by
    refine List.filterMap_eq_nil_iff.mpr fun segment member => ?_
    cases segment with
    | text content => rfl
    | reference target => exact absurd member (plain target)
  have nowhere : Segment.places 0 (Segment.ofText raw) = [] := by
    rw [← List.map_eq_nil_iff (f := Prod.snd), Segment.places_references, none]
  have untouched : ∀ position reference, ¬TokenAt raw.toList position reference := by
    intro position reference here
    have place := (tokenised.exact position reference).mpr here
    rw [nowhere] at place
    exact List.not_mem_nil place
  refine {
    written := rfl
    references := rfl
    ordered := List.Pairwise.nil
    exact := fun position reference => by simp [places, untouched]
    literal := fun value => ?_
    lookup := fun target => ⟨fun same => ?_, fun whole => ?_⟩
    template := ⟨fun ⟨_, same⟩ => ?_, fun ⟨⟨position, reference, here⟩, _⟩ => ?_⟩
    segments := fun segments same => ?_ }
  · simp [untouched, eq_comm]
  · cases same
  · exact absurd (token_of_whole raw target whole) (untouched 0 target)
  · cases same
  · exact absurd here (untouched position reference)
  · cases same

theorem template_tokenised (raw : String) (target : Reference)
    (member : Segment.reference target ∈ Segment.ofText raw)
    (many : ∀ other, Segment.ofText raw ≠ [.reference other]) :
    Tokenised raw (.template (Segment.ofText raw)) := by
  have tokenised := Segment.of_text_tokenised raw
  obtain ⟨place, there, same⟩ : ∃ place ∈ Segment.places 0 (Segment.ofText raw), place.2 = target := by
    rw [← List.mem_map, Segment.places_references]
    exact List.mem_filterMap.mpr ⟨_, member, rfl⟩
  have here := (tokenised.exact place.1 place.2).mp there
  have partly : ∀ other, ¬IsToken raw.toList other :=
    fun other whole => many other ((single_token_iff raw other).mpr whole)
  refine {
    written := ?_
    references := Segment.places_references 0 _
    ordered := Segment.places_ordered 0 _
    exact := tokenised.exact
    literal := fun value => ⟨fun same => ?_, fun plain => absurd here (plain.2 _ _)⟩
    lookup := fun other => ⟨fun same => ?_, fun whole => absurd whole (partly other)⟩
    template := ⟨fun _ => ⟨⟨_, _, here⟩, partly⟩, fun _ => ⟨_, rfl⟩⟩
    segments := fun segments same => ?_ }
  · apply String.toList_injective
    simpa [written, Segment.writtenChars, String.toList_join, List.flatMap_map] using
      tokenised.written
  · cases same
  · cases same
  · cases same
    refine ⟨?_, ⟨target, member⟩, tokenised.separated⟩
    -- One segment alone would be the reference, and the text a look-up.
    by_contra few
    match known : Segment.ofText raw with
    | [] => simp [known] at member
    | [only] =>
        rw [known, List.mem_singleton] at member
        exact many target (by rw [known, member])
    | _ :: _ :: _ => simp [known] at few

theorem text_tokenised (raw : String) : Tokenised raw (ofText raw) := by
  unfold ofText
  dsimp only
  split
  · rename_i target single
    exact lookup_tokenised raw target single
  · rename_i many
    split
    · rename_i referring
      obtain ⟨segment, member, refers⟩ := List.any_eq_true.mp referring
      cases segment with
      | text content => cases refers
      | reference target => exact template_tokenised raw target member many
    · rename_i plain
      refine literal_tokenised raw fun target member => plain ?_
      exact List.any_eq_true.mpr ⟨_, member, rfl⟩

end Expression

end BrowserFlow
