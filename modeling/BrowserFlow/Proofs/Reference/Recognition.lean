import BrowserFlow.Proofs.Condition.Shape
import BrowserFlow.Proofs.Interpolation
/-! Who takes a text for a reference. A reference has one spelling: its own text. Readers of references, the
pattern of condition fields and the tokens of authored texts agree on these spellings, as far as each of
them goes. -/
set_option autoImplicit false

namespace BrowserFlow

open Json Authoring

theorem Text.identifier_no_number (word : List Char) (identifier : isIdentifier word = true) :
    isDigits word = false := by
  cases word with
  | nil => rfl
  | cons c rest =>
      have starts := (Bool.and_eq_true_iff.mp identifier).1
      have letter : isDigit c = false := by
        cases digit : isDigit c with
        | false => rfl
        | true =>
            simp only [startsIdentifier, isLetter, isDigit, Bool.or_eq_true, Bool.and_eq_true,
              decide_eq_true_iff, beq_iff_eq, Char.le_def, UInt32.le_iff_toNat_le] at starts digit
            rcases starts with (small | capital) | rfl
            · simp at small digit
              omega
            · simp at capital digit
              omega
            · simp at digit
      simp [isDigits, letter]

namespace Reference

theorem text_unblank (reference : Reference) (proper : reference.Proper) :
    ∀ c ∈ reference.text.toList, Text.isBlank c = false := by
  intro c member
  rw [text_chars reference proper, List.mem_append, List.mem_flatMap] at member
  rcases member with inScope | ⟨piece, listed, inPiece⟩
  · have letter := Meaning.scope_letters reference.scope c inScope
    exact Text.identifier_unblank c (by simp [Text.continuesIdentifier, letter])
  · cases List.mem_cons.mp inPiece with
    | inl point => exact point ▸ (by decide)
    | inr inside => exact Text.identifier_unblank c (segment_chars reference proper piece listed c inside)

theorem text_trimmed (reference : Reference) (proper : reference.Proper) :
    Text.trim reference.text = reference.text := by
  rw [Text.trim, Text.trim_free _ (text_unblank reference proper), String.ofList_toList]

theorem text_read (reference : Reference) (proper : reference.Proper) :
    read? reference.text = some reference :=
  (read_iff _ reference).mpr ⟨proper, text_trimmed reference proper⟩

theorem read_trimmed_iff (raw : String) (reference : Reference) :
    read? raw = some reference ∧ Text.trim raw = raw ↔ reference.Proper ∧ raw = reference.text := by
  constructor
  · rintro ⟨read, trimmed⟩
    obtain ⟨proper, written⟩ := (read_iff raw reference).mp read
    exact ⟨proper, trimmed.symm.trans written⟩
  · rintro ⟨proper, rfl⟩
    exact ⟨text_read reference proper, text_trimmed reference proper⟩

theorem text_field_iff (scope : Scope) (first : String) (later : List String)
    (proper : Proper ⟨scope, first :: later⟩) :
    Pattern.conditionField.accepts (text ⟨scope, first :: later⟩) = true ↔
      Text.isIdentifier first.toList = true := by
  have inScope : scope.name.toList ∈ Pattern.scopeName := by
    rw [Pattern.scope_iff, String.ofList_toList, (scope_known_iff _ scope).mpr rfl]
    rfl
  have segments : ∀ piece ∈ later.map String.toList, piece ∈ Pattern.segment := by
    refine List.forall_mem_map.mpr fun segment listed => ?_
    rw [Pattern.segment_iff, String.ofList_toList]
    exact proper.segments segment (List.mem_cons_of_mem _ listed)
  rw [Pattern.accepts, Pattern.condition_field_pieces _ _ _ _ (text_cut _ proper), Pattern.identifier_iff]
  exact ⟨fun pieces => pieces.1.2, fun identifier => ⟨⟨inScope, identifier⟩, segments⟩⟩

theorem field_spelled (raw : String) (accepted : Pattern.conditionField.accepts raw = true) :
    ∃ reference : Reference, reference.Proper ∧ raw = reference.text := by
  obtain ⟨scope, name, pieces, cut, segments⟩ :=
    field_cut raw ((Pattern.accepts_iff .conditionField raw).mp accepted)
  have proper : Proper ⟨scope, (name :: pieces).map String.ofList⟩ :=
    ⟨List.cons_ne_nil _ _, List.forall_mem_map.mpr segments⟩
  refine ⟨_, proper, String.toList_injective ?_⟩
  rw [text_chars _ proper, (Text.split_at_written '.' raw.toList _ _ cut).1]
  simp [Function.comp_def]

-- The first name of a condition field is no number, which is all that the pattern asks for beyond
-- what a reader of references does.
theorem field_iff (raw : String) :
    Pattern.conditionField.accepts raw = true ↔
      ∃ scope first later, read? raw = some ⟨scope, first :: later⟩ ∧ Text.trim raw = raw ∧
        Text.isDigits first.toList = false := by
  constructor
  · intro accepted
    obtain ⟨⟨scope, path⟩, proper, rfl⟩ := field_spelled raw accepted
    obtain ⟨first, later, rfl⟩ := List.exists_cons_of_ne_nil proper.named
    have identifier := (text_field_iff scope first later proper).mp accepted
    exact ⟨scope, first, later, text_read _ proper, text_trimmed _ proper,
      Text.identifier_no_number _ identifier⟩
  · rintro ⟨scope, first, later, read, trimmed, noNumber⟩
    obtain ⟨proper, rfl⟩ := (read_trimmed_iff raw _).mp ⟨read, trimmed⟩
    have segment := proper.segments first List.mem_cons_self
    rw [isSegment, noNumber, Bool.false_or] at segment
    exact (text_field_iff scope first later proper).mpr segment

theorem token_text_iff (raw : String) (reference : Reference) :
    Expression.ofText ("$\x7b" ++ raw ++ "\x7d") = .lookup reference ↔
      ∃ scope name, reference = ⟨scope, [name]⟩ ∧ Text.isIdentifier name.toList = true ∧
        raw = reference.text := by
  have chars : ("$\x7b" ++ raw ++ "\x7d").toList = '$' :: '\x7b' :: (raw.toList ++ ['\x7d']) := by
    simp
  rw [(Expression.text_tokenised _).lookup, chars]
  refine exists_congr fun scope => exists_congr fun name => and_congr_right fun same =>
    and_congr_right fun _ => ?_
  subst same
  have closed : tokenChars scope name =
      '$' :: '\x7b' :: ((scope.name.toList ++ '.' :: name.toList) ++ ['\x7d']) := by
    simp [tokenChars]
  rw [closed, List.cons.injEq, List.cons.injEq, List.append_left_inj, ← String.toList_inj]
  simp [text, Text.joinWith]

theorem token_iff (raw : String) (reference : Reference) :
    Expression.ofText ("$\x7b" ++ raw ++ "\x7d") = .lookup reference ↔
      Pattern.conditionField.accepts raw = true ∧ read? raw = some reference ∧
        reference.path.length = 1 := by
  rw [token_text_iff]
  constructor
  · rintro ⟨scope, name, rfl, identifier, rfl⟩
    have proper : Proper ⟨scope, [name]⟩ := by
      refine ⟨List.cons_ne_nil _ _, List.forall_mem_singleton.mpr ?_⟩
      rw [isSegment, identifier, Bool.or_true]
    exact ⟨(text_field_iff scope name [] proper).mpr identifier, text_read _ proper, rfl⟩
  · rintro ⟨accepted, read, single⟩
    have trimmed : Text.trim raw = raw :=
      field_trimmed raw ((Pattern.accepts_iff .conditionField raw).mp accepted)
    obtain ⟨proper, rfl⟩ := (read_trimmed_iff raw reference).mp ⟨read, trimmed⟩
    rcases reference with ⟨scope, path⟩
    obtain ⟨name, rfl⟩ := List.length_eq_one_iff.mp single
    exact ⟨scope, name, rfl, (text_field_iff scope name [] proper).mp accepted, rfl⟩

-- What a text is to those who look for references: a reader that trims it, the pattern of condition
-- fields, and a scanner of authored texts that meets it between `${` and `}`.
structure Recognised (raw : String) : Prop where
  spelled : ∀ reference, read? raw = some reference →
    reference.text = Text.trim raw ∧ read? reference.text = some reference
  field : Pattern.conditionField.accepts raw = true ↔
    ∃ scope first later, read? raw = some ⟨scope, first :: later⟩ ∧ Text.trim raw = raw ∧
      Text.isDigits first.toList = false
  token : ∀ reference, Expression.ofText ("$\x7b" ++ raw ++ "\x7d") = .lookup reference ↔
    Pattern.conditionField.accepts raw = true ∧ read? raw = some reference ∧
      reference.path.length = 1

theorem recognisers_agree (raw : String) : Recognised raw := by
  refine ⟨fun reference read => ?_, field_iff raw, token_iff raw⟩
  obtain ⟨proper, written⟩ := (read_iff raw reference).mp read
  exact ⟨written.symm, text_read reference proper⟩

end Reference

end BrowserFlow
