import BrowserFlow.Proofs.Condition
import BrowserFlow.Proofs.Authoring.Acceptance
import BrowserFlow.Proofs.Display.Quoted
import BrowserFlow.Program
/-! Guards and their texts. Wherever the text of a guard stands, it is the text of one comparison or of one
combination only, and where a combination has a single part, it does not matter which one it is; so guards
that are shown alike hold alike. -/
set_option autoImplicit false

namespace BrowserFlow

open Json Text

namespace Reference

structure Proper (reference : Reference) : Prop where
  named : reference.path ≠ []
  segments : ∀ segment ∈ reference.path, isSegment segment = true

theorem read_proper (raw : String) (reference : Reference) (read : read? raw = some reference) :
    reference.Proper := by
  unfold read? at read
  split at read
  · cases read
  · split at read
    · split at read
      · cases read
      · rename_i accepted
        cases read
        simp only [Bool.or_eq_true, Bool.not_eq_true', not_or, Bool.not_eq_false,
          List.all_eq_true] at accepted
        exact ⟨by simpa using accepted.1, accepted.2⟩
    · cases read

theorem text_chars (reference : Reference) (proper : reference.Proper) :
    reference.text.toList =
      reference.scope.name.toList ++ (reference.path.map String.toList).flatMap ('.' :: ·) := by
  rcases reference with ⟨scope, path⟩
  cases path with
  | nil => exact absurd rfl proper.named
  | cons first rest => simp [text, join_with_chars]

theorem segment_chars (reference : Reference) (proper : reference.Proper) :
    ∀ piece ∈ reference.path.map String.toList, ∀ c ∈ piece, continuesIdentifier c = true := by
  intro piece listed
  obtain ⟨segment, member, rfl⟩ := List.mem_map.mp listed
  have valid := proper.segments segment member
  rw [← String.ofList_toList (s := segment)] at valid
  exact Authoring.Pattern.segment_continues segment.toList valid

theorem text_cut (reference : Reference) (proper : reference.Proper) :
    splitAt '.' reference.text.toList =
      reference.scope.name.toList :: reference.path.map String.toList := by
  refine (split_at_iff '.' _ _ _).mpr ⟨text_chars reference proper, ?_, fun piece listed => ?_⟩
  · exact scope_free reference.scope '.' (by decide)
  · exact free_of_class _ piece (segment_chars reference proper piece listed) '.' (by decide)

theorem text_told (reference other : Reference) (proper : reference.Proper) (otherProper : other.Proper)
    (same : reference.text = other.text) : reference = other := by
  have cut := text_cut reference proper
  rw [same, text_cut other otherProper] at cut
  obtain ⟨scopes, paths⟩ := List.cons.inj cut
  have pathSame : other.path = reference.path :=
    List.map_injective_iff.mpr (fun _ _ same => String.toList_injective same) paths
  have scopeSame : other.scope = reference.scope := by
    have known := (scope_known_iff _ other.scope).mpr rfl
    rw [String.toList_injective scopes, (scope_known_iff _ reference.scope).mpr rfl] at known
    exact (Option.some.inj known).symm
  rcases reference with ⟨scope, path⟩
  rcases other with ⟨otherScope, otherPath⟩
  cases pathSame
  cases scopeSame
  rfl

theorem text_unspaced (reference : Reference) (proper : reference.Proper) :
    ' ' ∉ reference.text.toList := by
  rw [text_chars reference proper, List.mem_append, List.mem_flatMap]
  rintro (inScope | ⟨piece, listed, inPiece⟩)
  · exact scope_free reference.scope ' ' (by decide) inScope
  · cases List.mem_cons.mp inPiece with
    | inl point => exact absurd point (by decide)
    | inr inside =>
        have continues := segment_chars reference proper piece listed
        exact free_of_class _ piece continues ' ' (by decide) inside

theorem text_unopened (reference : Reference) (rest tail : List Char) :
    reference.text.toList ++ rest ≠ '(' :: tail := by
  intro same
  rcases reference with ⟨scope, path⟩
  cases scope <;> simp [text, Scope.name] at same

end Reference

theorem Comparison.symbol_told (one other : Comparison) (same : one.symbol = other.symbol) :
    one = other := by
  cases one <;> cases other <;> first | rfl | exact absurd same (by decide)

theorem Comparison.symbol_unspaced (comparison : Comparison) : ' ' ∉ comparison.symbol.toList := by
  cases comparison <;> decide

namespace Guard

def partChars (guard : Guard) : List Char :=
  guard.displayPart.toList

def Agree (one other : Guard) : Prop :=
  ∀ context, one.holds context = other.holds context

theorem compare_chars (field : Reference) (comparison : Comparison) (value : Json) (rest : List Char) :
    (compare field comparison value).partChars ++ rest =
      field.text.toList ++ ' ' :: (comparison.symbol.toList ++ ' ' :: (literalChars value ++ rest)) := by
  simp [partChars, displayPart, literalChars]

section

variable (known : List Json)

-- A guard as conditions are compiled to: its fields can be read and its combinations have parts. The
-- numbers that it compares with are among the known ones.
inductive Readable : Guard → Prop where
  | compare (field : Reference) (comparison : Comparison) (value : Json) (proper : field.Proper)
      (within : Within known value) : Readable (.compare field comparison value)
  | group (combination : Combination) (parts : List Guard) (nonempty : parts ≠ [])
      (each : ∀ part ∈ parts, Readable part) : Readable (.group combination parts)

theorem compare_faithful (apart : SpelledApart known) (field other : Reference)
    (comparison otherComparison : Comparison) (value otherValue : Json) (proper : field.Proper)
    (otherProper : other.Proper) (within : Within known value) (otherWithin : Within known otherValue) :
    Faithful partChars Agree EndsValue (compare field comparison value)
      (compare other otherComparison otherValue) := by
  intro rest tail ends otherEnds same
  rw [compare_chars, compare_chars] at same
  obtain ⟨fields, behindField⟩ := piece_told ' ' _ _ _ _ (field.text_unspaced proper)
    (other.text_unspaced otherProper) same
  obtain ⟨symbols, behindSymbol⟩ := piece_told ' ' _ _ _ _ comparison.symbol_unspaced
    otherComparison.symbol_unspaced behindField
  obtain ⟨values, rests⟩ := literal_text_told known apart value otherValue within otherWithin rest tail
    ends otherEnds behindSymbol
  have fieldSame := field.text_told other proper otherProper (String.toList_injective fields)
  have comparisonSame := comparison.symbol_told otherComparison (String.toList_injective symbols)
  rw [fieldSame, comparisonSame, values]
  exact ⟨fun _ => rfl, rests⟩

def ClosesGroup (rest : List Char) : Prop :=
  EndsValue rest ∧ rest.head? ≠ some ' '

theorem joint_punctuation (combination : Combination) :
    Punctuation combination.joint.toList EndsValue ClosesGroup := by
  cases combination with
  | all | any =>
      refine ⟨fun next c head => ?_, fun rest closes => closes.1, fun rest next closes same => ?_⟩
      · cases head
        decide
      · exact closes.2 (by rw [same]; rfl)

theorem display_parts_joined (combination : Combination) (parts : List Guard) :
    (displayParts combination parts).toList = joined partChars combination.joint.toList parts := by
  induction parts with
  | nil => rfl
  | cons part rest ih =>
      cases rest with
      | nil => simp [displayParts, joined, separated, partChars]
      | cons next others => simp [displayParts, ih, joined, separated, partChars]

theorem group_chars (combination : Combination) (parts : List Guard) (rest : List Char) :
    (group combination parts).partChars ++ rest =
      '(' :: (joined partChars combination.joint.toList parts ++ ')' :: rest) := by
  simp [partChars, displayPart, display_parts_joined]

theorem alike_hold (ones others : List Guard) (alike : List.Forall₂ Agree ones others)
    (context : Context) :
    allHold context ones = allHold context others ∧ anyHolds context ones = anyHolds context others := by
  induction alike with
  | nil => exact ⟨rfl, rfl⟩
  | cons agree _ ih => simp [allHold, anyHolds, agree context, ih]

theorem groups_agree (combination : Combination) (ones others : List Guard)
    (alike : List.Forall₂ Agree ones others) :
    Agree (group combination ones) (group combination others) := by
  intro context
  obtain ⟨all, any⟩ := alike_hold ones others alike context
  cases combination with
  | all => simp [holds, all]
  | any => simp [holds, any]

theorem single_agrees (combination : Combination) (part : Guard) :
    Agree (group combination [part]) part := by
  intro context
  cases combination with
  | all => simp [holds, allHold]
  | any => simp [holds, anyHolds]

theorem joints_told (one other : Combination) (different : one ≠ other) (ones others : List Guard)
    (rest tail : List Char) (closes : ClosesGroup rest) (otherCloses : ClosesGroup tail)
    (same : separated partChars one.joint.toList ones ++ rest =
      separated partChars other.joint.toList others ++ tail) : ones = [] ∧ others = [] := by
  cases ones with
  | nil =>
      cases others with
      | nil => exact ⟨rfl, rfl⟩
      | cons second others =>
          simp only [separated, List.flatMap_nil, List.nil_append, List.flatMap_cons,
            List.append_assoc] at same
          exact absurd same ((joint_punctuation other).closes rest _ closes)
  | cons second ones =>
      simp only [separated, List.flatMap_cons, List.append_assoc] at same
      cases others with
      | nil => exact absurd same.symm ((joint_punctuation one).closes tail _ otherCloses)
      | cons third others =>
          cases one <;> cases other <;> first | exact absurd rfl different | simp [Combination.joint] at same

theorem parts_faithful (combination other : Combination) (ones others : List Guard)
    (nonempty : ones ≠ []) (otherNonempty : others ≠ [])
    (each : ∀ one ∈ ones, ∀ other ∈ others, Faithful partChars Agree EndsValue one other)
    (rest tail : List Char) (closes : ClosesGroup rest) (otherCloses : ClosesGroup tail)
    (same : joined partChars combination.joint.toList ones ++ rest =
      joined partChars other.joint.toList others ++ tail) :
    Agree (group combination ones) (group other others) ∧ rest = tail := by
  obtain ⟨first, more, rfl⟩ := List.exists_cons_of_ne_nil nonempty
  obtain ⟨otherFirst, otherMore, rfl⟩ := List.exists_cons_of_ne_nil otherNonempty
  rw [joined, joined, List.append_assoc, List.append_assoc] at same
  have stops := separated_stops partChars _ (joint_punctuation combination) more rest closes
  have otherStops := separated_stops partChars _ (joint_punctuation other) otherMore tail otherCloses
  obtain ⟨agree, behind⟩ := each first List.mem_cons_self otherFirst List.mem_cons_self _ _ stops
    otherStops same
  -- Two combinations that differ are shown alike only with a single part, and then both mean that part.
  by_cases combinations : combination = other
  · subst combinations
    obtain ⟨alike, rests⟩ := separated_faithful partChars Agree _ (joint_punctuation combination) more
      otherMore (later_pairs _ first otherFirst more otherMore each) rest tail closes otherCloses behind
    exact ⟨groups_agree combination _ _ (.cons agree alike), rests⟩
  · obtain ⟨rfl, rfl⟩ := joints_told combination other combinations more otherMore rest tail closes
      otherCloses behind
    refine ⟨fun context => ?_, behind⟩
    rw [single_agrees combination first context, single_agrees other otherFirst context]
    exact agree context

-- Induction on the derivation: the parts of a combination are told from those of another one.
theorem part_faithful (apart : SpelledApart known) (one : Guard) (readable : Readable known one) :
    ∀ other, Readable known other → Faithful partChars Agree EndsValue one other := by
  induction readable with
  | compare field comparison value proper within =>
      intro other otherReadable
      cases otherReadable with
      | compare otherField otherComparison otherValue otherProper otherWithin =>
          exact compare_faithful known apart field otherField comparison otherComparison value otherValue
            proper otherProper within otherWithin
      | group combination parts _ _ =>
          intro rest tail _ _ same
          rw [compare_chars, group_chars] at same
          exact absurd same (field.text_unopened _ _)
  | group combination parts nonempty _ ih =>
      intro other otherReadable rest tail _ _ same
      cases otherReadable with
      | compare field comparison value _ _ =>
          rw [compare_chars, group_chars] at same
          exact absurd same.symm (field.text_unopened _ _)
      | group otherCombination others otherNonempty each =>
          have closed : ∀ after, ClosesGroup (')' :: after) := by
            refine fun after => ⟨fun c head => ?_, by simp⟩
            cases head
            decide
          rw [group_chars, group_chars] at same
          obtain ⟨agree, rests⟩ := parts_faithful combination otherCombination parts others nonempty
            otherNonempty (fun one member other listed => ih one member other (each other listed))
            _ _ (closed rest) (closed tail) (List.cons.inj same).2
          exact ⟨agree, (List.cons.inj rests).2⟩

theorem shown_as_group (guard : Guard) (readable : Readable known guard) :
    ∃ combination parts, parts ≠ [] ∧ (∀ part ∈ parts, Readable known part) ∧
      guard.display = displayParts combination parts ∧ Agree guard (group combination parts) := by
  cases readable with
  | compare field comparison value proper within =>
      refine ⟨.all, [compare field comparison value], by simp, ?_, rfl, ?_⟩
      · exact List.forall_mem_singleton.mpr (.compare field comparison value proper within)
      · exact fun context => (single_agrees .all _ context).symm
  | group combination parts nonempty each =>
      exact ⟨combination, parts, nonempty, each, rfl, fun _ => rfl⟩

theorem display_told (apart : SpelledApart known) (one other : Guard) (readable : Readable known one)
    (otherReadable : Readable known other) (same : one.display = other.display) : Agree one other := by
  obtain ⟨combination, parts, nonempty, each, shown, means⟩ := shown_as_group known one readable
  obtain ⟨otherCombination, others, otherNonempty, otherEach, otherShown, otherMeans⟩ :=
    shown_as_group known other otherReadable
  have texts : joined partChars combination.joint.toList parts ++ [] =
      joined partChars otherCombination.joint.toList others ++ [] := by
    rw [← display_parts_joined, ← display_parts_joined, ← shown, ← otherShown, same]
  have ended : ClosesGroup [] := ⟨nofun, nofun⟩
  obtain ⟨agree, _⟩ := parts_faithful combination otherCombination parts others nonempty otherNonempty
    (fun one member other listed => part_faithful known apart one (each one member) other
      (otherEach other listed)) [] [] ended ended texts
  intro context
  rw [means context, otherMeans context, agree context]

end

end Guard

namespace Condition

open Guard Authoring

variable (known : List Json)

theorem comparison_readable (entries : Entries Json) (guard : Guard)
    (within : Within known (object entries)) (compiled : comparison entries = .ok guard) :
    Readable known guard := by
  simp only [comparison, bind_ok_iff] at compiled
  obtain ⟨raw, _, field, fieldRead, word, _, operator, _, value, valueRead, same⟩ := compiled
  cases same
  cases read : Reference.read? raw with
  | none => simp [read] at fieldRead
  | some reference =>
      cases found : Entries.find? "value" entries with
      | none => simp [found] at valueRead
      | some expected =>
          simp only [read, Option.elim, Except.ok.injEq] at fieldRead
          simp only [found, Option.elim, Except.ok.injEq] at valueRead
          subst fieldRead valueRead
          exact .compare reference operator expected (reference.read_proper raw read)
            (entry_within known entries within _ (Entries.find_member "value" expected entries found))

-- Induction on the condition: the guards of a combination come from its parts.
theorem compiled_readable (condition : Json) (guard : Guard) (within : Within known condition)
    (compiled : compile condition = .ok guard) : Readable known guard := by
  induction condition using condition_induction generalizing guard with
  | step condition ih =>
      cases condition with
      | object entries =>
          rw [compile] at compiled
          split at compiled
          · cases compiled
          · cases compiled
          · exact comparison_readable known entries guard within compiled
          · obtain ⟨mode, parts, guards, _, found, nonempty, partsCompiled, rfl⟩ :=
              group_found _ entries guard compiled
            obtain ⟨length, each⟩ := parts_found parts guards partsCompiled
            refine .group mode guards (fun empty => nonempty ?_) fun part member => ?_
            · rw [← List.length_eq_zero_iff, ← length, empty, List.length_nil]
            · obtain ⟨condition, listed, conditionCompiled⟩ := each part member
              have inside := entry_within known entries within _ (Entries.find_member _ _ entries found)
              exact ih entries parts rfl found condition listed part
                (item_within known parts inside condition listed) conditionCompiled
      | _ => cases compiled

theorem listing_told (step : Step) (guard other : Guard)
    (same : Step.listing { step with guard := some guard } =
      Step.listing { step with guard := some other }) : guard.display = other.display := by
  have texts := congrArg String.toList same
  simp only [Step.listing, Step.line, Option.isSome_some, String.toList_append, List.append_assoc,
    List.append_cancel_left_eq] at texts
  exact String.toList_injective (List.append_cancel_right texts)

theorem display_determines_meaning (one other : Json) (pointer otherPointer : Authoring.Pointer)
    (valid : Authoring.checkCondition pointer one = [])
    (otherValid : Authoring.checkCondition otherPointer other = [])
    (apart : SpelledApart (one.numbers ++ other.numbers)) :
    ∃ guard otherGuard, compile one = .ok guard ∧ compile other = .ok otherGuard ∧
      (guard.display = otherGuard.display →
        ∀ context, guard.holds context = otherGuard.holds context) ∧
      ∀ step : Step, Step.listing { step with guard := some guard } =
          Step.listing { step with guard := some otherGuard } →
        ∀ context, guard.holds context = otherGuard.holds context := by
  obtain ⟨guard, compiled, _⟩ := condition_stands one ((Authoring.check_condition_iff _ one).mp valid)
  obtain ⟨otherGuard, otherCompiled, _⟩ :=
    condition_stands other ((Authoring.check_condition_iff _ other).mp otherValid)
  have within : Within (one.numbers ++ other.numbers) one := fun _ => List.mem_append_left _
  have otherWithin : Within (one.numbers ++ other.numbers) other := fun _ => List.mem_append_right _
  have told := display_told _ apart guard otherGuard (compiled_readable _ one guard within compiled)
    (compiled_readable _ other otherGuard otherWithin otherCompiled)
  exact ⟨guard, otherGuard, compiled, otherCompiled, told,
    fun step same => told (listing_told step guard otherGuard same)⟩

theorem display_determines_meaning_age :
    Authoring.checkCondition []
        (object [("field", string "input.age"), ("op", string ">"), ("value", integer 18)]) = [] ∧
      Authoring.checkCondition []
        (object [("conditions", array [object [("field", string "input.age"), ("op", string ">"),
          ("value", integer 18)]]), ("match", string "any")]) = [] ∧
      SpelledApart [integer 18, integer 18] ∧
      (compare ⟨.input, ["age"]⟩ .greater (integer 18)).display = "input.age > 18" ∧
      (group .any [compare ⟨.input, ["age"]⟩ .greater (integer 18)]).display = "input.age > 18" ∧
      ∀ context, (compare ⟨.input, ["age"]⟩ .greater (integer 18)).holds context =
        (group .any [compare ⟨.input, ["age"]⟩ .greater (integer 18)]).holds context := by
  have apart : SpelledApart [integer 18, integer 18] := by
    intro one listed other otherListed _
    simp only [List.mem_cons, List.not_mem_nil, or_false, or_self] at listed otherListed
    rw [listed, otherListed]
  have single : compile (object [("field", string "input.age"), ("op", string ">"),
      ("value", integer 18)]) = .ok (compare ⟨.input, ["age"]⟩ .greater (integer 18)) := rfl
  have grouped : compile (object [("conditions", array [object [("field", string "input.age"),
      ("op", string ">"), ("value", integer 18)]]), ("match", string "any")]) =
        .ok (group .any [compare ⟨.input, ["age"]⟩ .greater (integer 18)]) := rfl
  obtain ⟨guard, otherGuard, compiled, otherCompiled, told, _⟩ := display_determines_meaning
    (object [("field", string "input.age"), ("op", string ">"), ("value", integer 18)])
    (object [("conditions", array [object [("field", string "input.age"), ("op", string ">"),
      ("value", integer 18)]]), ("match", string "any")]) [] [] rfl rfl apart
  rw [single, Except.ok.injEq] at compiled
  rw [grouped, Except.ok.injEq] at otherCompiled
  subst compiled otherCompiled
  exact ⟨rfl, rfl, apart, rfl, rfl, told rfl⟩

end Condition

end BrowserFlow
