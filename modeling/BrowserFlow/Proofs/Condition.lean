import BrowserFlow.Proofs.Authoring.Grammar
import BrowserFlow.Proofs.Meaning
import BrowserFlow.Proofs.Success
import BrowserFlow.Proofs.Text.Trimming
/-! Conditions of the grammar compile, and their guards hold exactly when the conditions do. -/
set_option autoImplicit false

namespace BrowserFlow

open Json Authoring

theorem scope_known_iff (word : String) (scope : Scope) :
    Scope.ofName? word = some scope ↔ word = scope.name := by
  have distinct : (Scope.all.map Scope.name).Nodup := by decide
  rw [Scope.ofName?, Scope.named, Entries.find_named_iff Scope.name Scope.all distinct word scope]
  have listed : scope ∈ Scope.all := by cases scope <;> decide
  exact ⟨fun found => found.2.symm, fun same => ⟨listed, same.symm⟩⟩

theorem field_cut (raw : String) (valid : raw.toList ∈ Pattern.conditionField.language) :
    ∃ (scope : Scope) (name : List Char) (pieces : List (List Char)),
      Text.splitAt '.' raw.toList = scope.name.toList :: name :: pieces ∧
        ∀ piece ∈ name :: pieces, Reference.isSegment (String.ofList piece) = true := by
  have accepted := (Pattern.condition_field_iff raw.toList).mp valid
  obtain ⟨scopeWord, others, cut⟩ := Text.split_at_nonempty '.' raw.toList
  cases others with
  | nil => simp [Pattern.isConditionField, cut] at accepted
  | cons name pieces =>
      obtain ⟨⟨inScope, inName⟩, inSegment⟩ :=
        (Pattern.condition_field_pieces raw.toList scopeWord name pieces cut).mp accepted
      obtain ⟨scope, known⟩ := Option.isSome_iff_exists.mp ((Pattern.scope_iff scopeWord).mp inScope)
      have scopeName : scopeWord = scope.name.toList := by
        rw [← (scope_known_iff _ scope).mp known, String.toList_ofList]
      refine ⟨scope, name, pieces, scopeName ▸ cut, fun piece member => ?_⟩
      cases List.mem_cons.mp member with
      | inl same =>
          have identifier := (Pattern.identifier_iff name).mp inName
          simp [same, Reference.isSegment, identifier]
      | inr later => exact (Pattern.segment_iff piece).mp (inSegment piece later)

-- References are read between blanks, but the pattern leaves no room for any.
theorem field_trimmed (raw : String) (valid : raw.toList ∈ Pattern.conditionField.language) :
    Text.trim raw = raw := by
  obtain ⟨scope, name, pieces, cut, segments⟩ := field_cut raw valid
  have unblank : ∀ c ∈ raw.toList, Text.isBlank c = false := by
    rw [(Text.split_at_written '.' raw.toList _ _ cut).1]
    intro c member
    cases List.mem_append.mp member with
    | inl front =>
        have letter := Meaning.scope_letters scope c front
        exact Text.identifier_unblank c (by simp [Text.continuesIdentifier, letter])
    | inr back =>
        obtain ⟨piece, inPieces, inPiece⟩ := List.mem_flatMap.mp back
        cases List.mem_cons.mp inPiece with
        | inl point => exact point ▸ (by decide)
        | inr inside =>
            exact Text.identifier_unblank c
              (Pattern.segment_continues piece (segments piece inPieces) c inside)
  rw [Text.trim, Text.trim_free raw.toList unblank, String.ofList_toList]

theorem field_read (raw : String) (valid : raw.toList ∈ Pattern.conditionField.language) :
    ∃ reference, Reference.read? raw = some reference ∧
      ∀ context : Context, context.lookup reference = Meaning.fieldValue? context raw := by
  obtain ⟨scope, name, pieces, cut, segments⟩ := field_cut raw valid
  have known := (scope_known_iff scope.name scope).mpr rfl
  refine ⟨⟨scope, (name :: pieces).map String.ofList⟩, ?_, fun context => ?_⟩
  · have all : ((name :: pieces).map String.ofList).all Reference.isSegment = true := by
      simpa using segments
    simp only [Reference.read?, field_trimmed raw valid, Text.split, cut, List.map_cons,
      String.ofList_toList] at all ⊢
    simp [known, all]
  · have same := (Meaning.scope_of_iff scope.name scope).mpr rfl
    simp [Meaning.fieldValue?, Context.lookup, cut, same]

theorem relation_tested (relation : Comparison) (test : Option Ordering → Bool)
    (unordered : test none = false) (ordered : ∀ order, relation.allows order = test (some order))
    (order : Option Ordering) :
    (match order with
      | some order => relation.allows order
      | none => false) = test order := by
  cases order with
  | none => exact unordered.symm
  | some order => exact ordered order

theorem operator_read (word : String) (listed : word ∈ ["==", "!=", ">", "<", ">=", "<="]) :
    ∃ comparison, Comparison.ofWord? word = some comparison ∧
      ∀ actual expected,
        Comparison.holds comparison actual expected = Meaning.compares word actual expected := by
  simp only [List.mem_cons, List.not_mem_nil, or_false] at listed
  rcases listed with rfl | rfl | rfl | rfl | rfl | rfl
  · exact ⟨.equal, rfl, fun _ _ => rfl⟩
  · exact ⟨.notEqual, rfl, fun _ _ => rfl⟩
  · refine ⟨.greater, rfl, fun _ _ => relation_tested .greater (· == some .gt) rfl ?_ _⟩
    intro order
    cases order <;> rfl
  · refine ⟨.less, rfl, fun _ _ => relation_tested .less (· == some .lt) rfl ?_ _⟩
    intro order
    cases order <;> rfl
  · refine ⟨.greaterOrEqual, rfl, fun _ _ =>
      relation_tested .greaterOrEqual (fun order => order == some .gt || order == some .eq) rfl ?_ _⟩
    intro order
    cases order <;> rfl
  · refine ⟨.lessOrEqual, rfl, fun _ _ =>
      relation_tested .lessOrEqual (fun order => order == some .lt || order == some .eq) rfl ?_ _⟩
    intro order
    cases order <;> rfl

namespace Condition

theorem has_any_iff (keys : List String) (entries : Entries Json) :
    hasAny keys entries = true ↔ ∃ key ∈ keys, key ∈ Entries.keys entries := by
  simp only [hasAny, List.any_eq_true, Entries.contains_member]

theorem has_any_other (others names : List String) (entries : Entries Json)
    (only : OnlyKeys names entries) (disjoint : ∀ key ∈ others, key ∉ names) :
    hasAny others entries = false := by
  rw [Bool.eq_false_iff]
  intro has
  obtain ⟨key, listed, there⟩ := (has_any_iff others entries).mp has
  exact disjoint key listed (only key there)

def Stands (guard : Guard) (condition : Json) : Prop :=
  compile condition = .ok guard ∧ ∀ context, guard.holds context = Meaning.holds context condition

theorem comparison_stands (entries : Entries Json)
    (keys : OnlyKeys ["field", "op", "value"] entries)
    (field : Must "field" (IsTextIn Pattern.conditionField.language) entries)
    (op : Must "op" (IsWordOf ["==", "!=", ">", "<", ">=", "<="]) entries)
    (value : Must "value" IsScalar entries) : ∃ guard, Stands guard (object entries) := by
  obtain ⟨_, fieldFound, raw, rfl, written⟩ := field
  obtain ⟨_, opFound, word, listed, rfl⟩ := op
  obtain ⟨expected, valueFound, _⟩ := value
  obtain ⟨reference, read, looked⟩ := field_read raw written
  obtain ⟨comparison, known, compared⟩ := operator_read word listed
  have single : hasAny comparisonKeys entries = true :=
    (has_any_iff _ _).mpr ⟨"field", by decide, Entries.key_of_found _ _ _ fieldFound⟩
  have alone : hasAny combinationKeys entries = false :=
    has_any_other _ _ entries keys (by decide)
  have ungrouped : Entries.contains "conditions" entries = false := by
    rw [Bool.eq_false_iff]
    intro there
    have foreign := keys "conditions" ((Entries.contains_member _ _).mp there)
    exact absurd foreign (by decide)
  refine ⟨.compare reference comparison expected, ?_, fun context => ?_⟩
  · rw [compile, single, alone]
    simp only [Condition.comparison, text_found _ _ _ fieldFound, text_found _ _ _ opFound, read,
      known, valueFound, Option.elim_some, bind, Except.bind]
    rfl
  · rw [Guard.holds, Meaning.holds, ungrouped]
    simp [Meaning.comparisonHolds, valueFound, text_at_found _ _ _ fieldFound,
      text_at_found _ _ _ opFound, looked, compared]

theorem parts_stand (parts : List Json) (each : ∀ part ∈ parts, ∃ guard, Stands guard part) :
    ∃ guards, compileParts parts = .ok guards ∧ ∀ context,
      Guard.allHold context guards = (Meaning.partVerdicts context parts).all id ∧
        Guard.anyHolds context guards = (Meaning.partVerdicts context parts).any id := by
  induction parts with
  | nil => exact ⟨[], rfl, fun _ => ⟨rfl, rfl⟩⟩
  | cons part rest ih =>
      obtain ⟨guard, compiled, means⟩ := each part List.mem_cons_self
      obtain ⟨guards, others, mean⟩ := ih fun other member => each other (List.mem_cons_of_mem _ member)
      refine ⟨guard :: guards, ?_, fun context => ?_⟩
      · rw [compileParts, compiled, others]
        rfl
      · simp [Guard.allHold, Guard.anyHolds, Meaning.partVerdicts, means context, mean context]

theorem group_passed (combination : Option Combination) (key : String) (value : Json)
    (rest : Entries Json) (other : key ≠ "conditions") :
    compileGroup combination ((key, value) :: rest) = compileGroup combination rest := by
  cases value with
  | array items => cases items <;> simp [compileGroup, other]
  | _ => simp [compileGroup, other]

theorem group_compiled (combination : Combination) (entries : Entries Json) (parts : List Json)
    (found : Entries.find? "conditions" entries = some (array parts)) (nonempty : parts ≠ [])
    (guards : List Guard) (compiled : compileParts parts = .ok guards) :
    compileGroup (some combination) entries = .ok (.group combination guards) := by
  induction entries with
  | nil => cases found
  | cons entry entries ih =>
      rcases entry with ⟨key, value⟩
      by_cases same : key = "conditions"
      · simp only [Entries.find?, if_pos same, Option.some.injEq] at found
        subst found
        cases parts with
        | nil => exact absurd rfl nonempty
        | cons first others =>
            rw [compileParts] at compiled
            rw [compileGroup, if_pos same]
            cases head : compile first with
            | error fault => simp [head] at compiled
            | ok guard =>
                simp only [head, map_ok_iff] at compiled
                obtain ⟨rest, othersCompiled, rfl⟩ := compiled
                simp only [othersCompiled]
                rfl
      · simp only [Entries.find?, if_neg same] at found
        rw [group_passed _ key value entries same, ih found]

theorem group_found (combination : Option Combination) (entries : Entries Json) (guard : Guard)
    (compiled : compileGroup combination entries = .ok guard) :
    ∃ mode parts guards, combination = some mode ∧
      Entries.find? "conditions" entries = some (array parts) ∧ parts ≠ [] ∧
      compileParts parts = .ok guards ∧ guard = .group mode guards := by
  induction entries with
  | nil => cases compiled
  | cons entry rest ih =>
      rcases entry with ⟨key, value⟩
      by_cases same : key = "conditions"
      · subst same
        match value with
        | .array (first :: others) =>
            cases combination with
            | none => cases compiled
            | some mode =>
                rw [compileGroup, if_pos rfl] at compiled
                split at compiled
                · cases compiled
                · rename_i head found
                  obtain ⟨guards, othersFound, rfl⟩ := (map_ok_iff _ _ _).mp compiled
                  refine ⟨mode, first :: others, head :: guards, rfl, by simp [Entries.find?],
                    List.cons_ne_nil _ _, ?_, rfl⟩
                  rw [compileParts, found, othersFound]
                  rfl
        | .array [] => cases compiled
        | .null => cases compiled
        | .bool _ => cases compiled
        | .integer _ => cases compiled
        | .float _ => cases compiled
        | .string _ => cases compiled
        | .object _ => cases compiled
      · rw [group_passed combination key value rest same] at compiled
        rw [Entries.find?, if_neg same]
        exact ih compiled

theorem parts_found (conditions : List Json) (guards : List Guard)
    (compiled : compileParts conditions = .ok guards) :
    guards.length = conditions.length ∧
      ∀ guard ∈ guards, ∃ condition ∈ conditions, compile condition = .ok guard := by
  induction conditions generalizing guards with
  | nil =>
      cases compiled
      simp
  | cons condition rest ih =>
      rw [compileParts] at compiled
      split at compiled
      · cases compiled
      · rename_i head found
        obtain ⟨others, othersFound, rfl⟩ := (map_ok_iff _ _ _).mp compiled
        obtain ⟨length, each⟩ := ih others othersFound
        refine ⟨congrArg (· + 1) length, List.forall_mem_cons.mpr ⟨?_, fun guard member => ?_⟩⟩
        · exact ⟨condition, List.mem_cons_self, found⟩
        · obtain ⟨other, listed, otherFound⟩ := each guard member
          exact ⟨other, List.mem_cons_of_mem _ listed, otherFound⟩

theorem verdicts_passed (context : Context) (key : String) (value : Json) (rest : Entries Json)
    (other : key ≠ "conditions") :
    Meaning.verdicts context ((key, value) :: rest) = Meaning.verdicts context rest := by
  cases value <;> simp [Meaning.verdicts, other]

theorem verdicts_found (context : Context) (entries : Entries Json) (parts : List Json)
    (found : Entries.find? "conditions" entries = some (array parts)) :
    Meaning.verdicts context entries = Meaning.partVerdicts context parts := by
  induction entries with
  | nil => cases found
  | cons entry entries ih =>
      rcases entry with ⟨key, value⟩
      by_cases same : key = "conditions"
      · simp only [Entries.find?, if_pos same, Option.some.injEq] at found
        subst found
        rw [Meaning.verdicts, if_pos same]
      · simp only [Entries.find?, if_neg same] at found
        rw [verdicts_passed context key value entries same, ih found]

theorem combination_stands (entries : Entries Json) (parts : List Json)
    (keys : OnlyKeys ["conditions", "match"] entries)
    (found : Entries.find? "conditions" entries = some (array parts)) (nonempty : parts ≠ [])
    (each : ∀ part ∈ parts, ∃ guard, Stands guard part)
    (mode : Must "match" (IsWordOf ["all", "any"]) entries) :
    ∃ guard, Stands guard (object entries) := by
  obtain ⟨_, modeFound, word, listed, rfl⟩ := mode
  have grouped : hasAny combinationKeys entries = true :=
    (has_any_iff _ _).mpr ⟨"conditions", by decide, Entries.key_of_found _ _ _ found⟩
  have alone : hasAny comparisonKeys entries = false :=
    has_any_other _ _ entries keys (by decide)
  have there : Entries.contains "conditions" entries = true :=
    (Entries.contains_iff _ _).mpr ⟨_, found⟩
  obtain ⟨guards, compiled, mean⟩ := parts_stand parts each
  have group : ∀ combination, combination? entries = some combination →
      compile (object entries) = .ok (.group combination guards) := by
    intro combination known
    rw [compile, grouped, alone, known]
    exact group_compiled combination entries parts found nonempty guards compiled
  simp only [List.mem_cons, List.not_mem_nil, or_false] at listed
  rcases listed with rfl | rfl
  · refine ⟨.group .all guards, group .all ?_, fun context => ?_⟩
    · simp [combination?, text_found _ _ _ modeFound, Combination.named, Entries.find?]
    · rw [Guard.holds, Meaning.holds, there, verdicts_found context entries parts found]
      simp [text_at_found _ _ _ modeFound, mean context]
  · refine ⟨.group .any guards, group .any ?_, fun context => ?_⟩
    · simp [combination?, text_found _ _ _ modeFound, Combination.named, Entries.find?]
    · rw [Guard.holds, Meaning.holds, there, verdicts_found context entries parts found]
      simp [text_at_found _ _ _ modeFound, mean context]

-- Induction on the derivation: the parts of a combination have guards that stand for them.
theorem condition_stands (condition : Json) (valid : IsCondition condition) :
    ∃ guard, Stands guard condition := by
  induction valid with
  | comparison entries keys field op value => exact comparison_stands entries keys field op value
  | combination entries parts keys found nonempty _ mode ih =>
      exact combination_stands entries parts keys found nonempty ih mode

end Condition

end BrowserFlow
