import BrowserFlow.Authoring.Check
import BrowserFlow.Proofs.Authoring.Grammar
import BrowserFlow.Proofs.Entries
/-! The check of a document against the grammar: each part of the check is silent exactly on what the
grammar admits, and so a document is valid exactly when it is a workflow. -/
set_option autoImplicit false

namespace BrowserFlow.Authoring

open Json

theorem violate_ne_nil (pointer : Pointer) (defect : Defect) : violate pointer defect ≠ [] := by
  simp [violate]

theorem when_present_iff (key : String) (entries : Entries Json)
    (check : Json → List Violation) (rule : Json → Prop)
    (decides : ∀ value, check value = [] ↔ rule value) :
    whenPresent key entries check = [] ↔ May key rule entries := by
  unfold whenPresent May
  cases Entries.find? key entries with
  | none => simp
  | some value => simp [decides]

theorem require_keys_iff (pointer : Pointer) (names : List String) (entries : Entries Json) :
    requireKeys pointer names entries = [] ↔ ∀ name ∈ names, name ∈ Entries.keys entries := by
  simp only [requireKeys, List.flatMap_eq_nil_iff, ← Entries.contains_member]
  refine forall₂_congr fun name _ => ?_
  split <;> simp_all [violate]

theorem allow_keys_iff (pointer : Pointer) (names : List String) (entries : Entries Json) :
    allowKeys pointer names entries = [] ↔ OnlyKeys names entries := by
  simp only [allowKeys, List.flatMap_eq_nil_iff, OnlyKeys, Entries.keys, List.forall_mem_map]
  refine forall₂_congr fun entry _ => ?_
  split <;> simp_all [violate]

theorem must_iff (key : String) (rule : Json → Prop) (entries : Entries Json) :
    Must key rule entries ↔ key ∈ Entries.keys entries ∧ May key rule entries := by
  rw [← Entries.contains_member, Entries.contains_iff]
  constructor
  · rintro ⟨value, found, follows⟩
    refine ⟨⟨value, found⟩, fun other again => ?_⟩
    rw [found] at again
    cases again
    exact follows
  · rintro ⟨⟨value, found⟩, follows⟩
    exact ⟨value, found, follows value found⟩

theorem check_text_iff (pointer : Pointer) (check : String → List Violation) (value : Json) :
    checkText pointer check value = [] ↔ ∃ text, value = string text ∧ check text = [] := by
  cases value <;> simp [checkText, violate]

theorem require_text_iff (pointer : Pointer) (value : Json) :
    requireText pointer value = [] ↔ IsText value := by
  rw [requireText, check_text_iff]
  simp [IsText]

theorem require_nonempty_iff (pointer : Pointer) (value : Json) :
    requireNonempty pointer value = [] ↔ IsNonemptyText value := by
  rw [requireNonempty, check_text_iff]
  refine exists_congr fun text => and_congr_right fun _ => ?_
  split <;> simp_all [violate]

theorem require_pattern_iff (pointer : Pointer) (pattern : Pattern) (value : Json) :
    requirePattern pointer pattern value = [] ↔ IsTextIn pattern.language value := by
  rw [requirePattern, check_text_iff]
  refine exists_congr fun text => and_congr_right fun _ => ?_
  rw [← Pattern.accepts_iff]
  split <;> simp_all [violate]

theorem require_word_iff (pointer : Pointer) (words : List String) (value : Json) :
    requireWord pointer words value = [] ↔ IsWordOf words value := by
  rw [requireWord, check_text_iff]
  refine exists_congr fun text => ?_
  rw [and_comm]
  refine and_congr_left fun _ => ?_
  split <;> simp_all [violate]

theorem require_scalar_iff (pointer : Pointer) (value : Json) :
    requireKind pointer .scalar value = [] ↔ IsScalar value := by
  cases value <;>
    simp [requireKind, Kind.accepts, isScalar, isNumber, IsScalar, IsText, IsFlag, violate]

theorem require_flag_iff (pointer : Pointer) (value : Json) :
    requireKind pointer .truth value = [] ↔ IsFlag value := by
  cases value <;> simp [requireKind, Kind.accepts, IsFlag, violate]

theorem require_object_iff (pointer : Pointer) (value : Json) :
    requireKind pointer .object value = [] ↔ IsRecord (fun _ => True) value := by
  cases value <;> simp [requireKind, Kind.accepts, IsRecord, violate]

theorem check_timeout_iff (pointer : Pointer) (value : Json) :
    checkTimeout pointer value = [] ↔ IsMilliseconds value := by
  cases value with
  | integer whole =>
      simp only [checkTimeout, IsMilliseconds, integer.injEq, ↓existsAndEq, true_and]
      split <;> simp [violate] <;> omega
  | _ => simp [checkTimeout, IsMilliseconds, violate]

theorem check_object_iff (pointer : Pointer) (check : Entries Json → List Violation)
    (rules : Entries Json → Prop) (decides : ∀ entries, check entries = [] ↔ rules entries)
    (value : Json) : checkObject pointer check value = [] ↔ IsRecord rules value := by
  cases value <;> simp [checkObject, IsRecord, decides, violate]

theorem check_values_iff (check : Pointer → Json → List Violation) (pointer : Pointer)
    (rule : Json → Prop) (decides : ∀ place value, check place value = [] ↔ rule value)
    (entries : Entries Json) :
    checkValues check pointer entries = [] ↔ ∀ entry ∈ entries, rule entry.2 := by
  simp only [checkValues, List.flatMap_eq_nil_iff, decides]

theorem check_items_iff (check : Pointer → Json → List Violation) (pointer : Pointer)
    (rule : Json → Prop) (decides : ∀ place value, check place value = [] ↔ rule value)
    (place : Nat) (items : List Json) :
    checkItems check pointer place items = [] ↔ ∀ item ∈ items, rule item := by
  induction items generalizing place with
  | nil => simp [checkItems]
  | cons item rest ih => simp [checkItems, decides, ih]

theorem check_table_iff (check : Pointer → Json → List Violation) (pointer : Pointer)
    (rule : Json → Prop) (decides : ∀ place value, check place value = [] ↔ rule value)
    (value : Json) :
    checkObject pointer (checkValues check pointer) value = [] ↔ IsTable rule value :=
  check_object_iff pointer _ _ (check_values_iff check pointer rule decides) value

theorem check_list_iff (check : Pointer → Json → List Violation) (pointer : Pointer)
    (rule : Json → Prop) (decides : ∀ place value, check place value = [] ↔ rule value)
    (value : Json) :
    checkArray pointer (checkItems check pointer 0) value = [] ↔ IsList rule value := by
  cases value <;> simp [checkArray, IsList, check_items_iff check pointer rule decides, violate]

def IsParts : Json → Prop := IsNonemptyList IsCondition

theorem check_comparison_iff (pointer : Pointer) (entries : Entries Json) :
    checkComparison pointer entries = [] ↔
      OnlyKeys ["field", "op", "value"] entries ∧
        Must "field" (IsTextIn Pattern.conditionField.language) entries ∧
        Must "op" (IsWordOf ["==", "!=", ">", "<", ">=", "<="]) entries ∧
        Must "value" IsScalar entries := by
  have words : Comparison.words = ["==", "!=", ">", "<", ">=", "<="] := rfl
  simp only [checkComparison, List.append_eq_nil_iff, require_keys_iff, allow_keys_iff, must_iff,
    when_present_iff _ _ _ _ (require_pattern_iff _ _), when_present_iff _ _ _ _ (require_word_iff _ _),
    when_present_iff _ _ _ _ (require_scalar_iff _), Condition.comparisonKeys, words,
    List.forall_mem_cons, List.not_mem_nil, IsEmpty.forall_iff, implies_true, and_true]
  tauto

def checkCombination (pointer : Pointer) (entries : Entries Json) : List Violation :=
  requireKeys pointer Condition.combinationKeys entries ++
    allowKeys pointer Condition.combinationKeys entries ++
    checkParts (pointer.child "conditions") entries ++
    whenPresent "match" entries
      (requireWord (pointer.child "match") (Combination.named.map Prod.fst))

theorem check_combination_iff (pointer : Pointer) (entries : Entries Json)
    (decides : checkParts (pointer.child "conditions") entries = [] ↔
      May "conditions" IsParts entries) :
    checkCombination pointer entries = [] ↔
      OnlyKeys ["conditions", "match"] entries ∧ Must "conditions" IsParts entries ∧
        Must "match" (IsWordOf ["all", "any"]) entries := by
  have words : Combination.named.map Prod.fst = ["all", "any"] := rfl
  simp only [checkCombination, List.append_eq_nil_iff, require_keys_iff, allow_keys_iff, must_iff,
    decides, when_present_iff _ _ _ _ (require_word_iff _ _), Condition.combinationKeys, words,
    List.forall_mem_cons, List.not_mem_nil, IsEmpty.forall_iff, implies_true, and_true]
  tauto

def checkSome (check : Pointer → Json → List Violation) (pointer : Pointer) : Json → List Violation :=
  checkArray pointer fun items =>
    (if items.isEmpty then violate pointer .tooFew else []) ++ checkItems check pointer 0 items

theorem check_conditions_items (pointer : Pointer) (place : Nat) (conditions : List Json) :
    checkConditions pointer place conditions = checkItems checkCondition pointer place conditions := by
  induction conditions generalizing place with
  | nil => rfl
  | cons condition rest ih => rw [checkConditions, checkItems, ih]

theorem check_parts_present (pointer : Pointer) (entries : Entries Json) :
    checkParts pointer entries = whenPresent "conditions" entries (checkSome checkCondition pointer) := by
  induction entries with
  | nil => rfl
  | cons entry rest ih =>
      rcases entry with ⟨key, value⟩
      by_cases same : key = "conditions"
      · subst same
        cases value with
        | array items =>
            cases items with
            | nil => simp [checkParts, whenPresent, Entries.find?, checkSome, checkArray, checkItems]
            | cons first others =>
                simp [checkParts, whenPresent, Entries.find?, checkSome, checkArray, checkItems,
                  check_conditions_items]
        | _ => simp [checkParts, whenPresent, Entries.find?, checkSome, checkArray]
      · unfold checkParts
        rw [if_neg same, ih]
        simp only [whenPresent, Entries.find?, if_neg same]

theorem check_condition_object (pointer : Pointer) (entries : Entries Json) :
    checkCondition pointer (object entries) =
      joinShapes pointer entries (checkComparison pointer entries) (checkCombination pointer entries) :=
  rfl

theorem condition_induction (motive : Json → Prop)
    (step : ∀ value, (∀ entries parts, value = object entries →
      Entries.find? "conditions" entries = some (array parts) → ∀ part ∈ parts, motive part) →
        motive value) (value : Json) : motive value := by
  apply step
  intro entries parts same found part member
  have inside := Entries.find_member "conditions" (array parts) entries found
  have partSmall := List.sizeOf_lt_of_mem member
  have entrySmall := List.sizeOf_lt_of_mem inside
  have smaller : sizeOf part < sizeOf value := by
    subst same
    simp only [Prod.mk.sizeOf_spec, array.sizeOf_spec, object.sizeOf_spec] at entrySmall ⊢
    omega
  exact condition_induction motive step part
termination_by sizeOf value

theorem join_shapes_iff (pointer : Pointer) (entries : Entries Json)
    (single grouped : List Violation) :
    joinShapes pointer entries single grouped = [] ↔
      (single = [] ∧ grouped ≠ []) ∨ (single ≠ [] ∧ grouped = []) := by
  cases single <;> cases grouped <;> simp [joinShapes, violate]

-- No object has both shapes: a comparison has a key that a combination may not have.
theorem shapes_exclusive (pointer : Pointer) (entries : Entries Json)
    (comparison : checkComparison pointer entries = []) : checkCombination pointer entries ≠ [] := by
  intro combination
  simp only [checkCombination, List.append_eq_nil_iff, allow_keys_iff] at combination
  obtain ⟨value, found, _⟩ := ((check_comparison_iff pointer entries).mp comparison).2.1
  have foreign := combination.1.1.2 "field" (Entries.key_of_found _ _ _ found)
  simp [Condition.combinationKeys] at foreign

theorem condition_iff (entries : Entries Json) :
    IsCondition (object entries) ↔
      (OnlyKeys ["field", "op", "value"] entries ∧
        Must "field" (IsTextIn Pattern.conditionField.language) entries ∧
        Must "op" (IsWordOf ["==", "!=", ">", "<", ">=", "<="]) entries ∧
        Must "value" IsScalar entries) ∨
      (OnlyKeys ["conditions", "match"] entries ∧ Must "conditions" IsParts entries ∧
        Must "match" (IsWordOf ["all", "any"]) entries) := by
  constructor
  · intro condition
    cases condition with
    | comparison _ keys field op value => exact Or.inl ⟨keys, field, op, value⟩
    | combination _ parts keys found nonempty each mode =>
        exact Or.inr ⟨keys, ⟨array parts, found, parts, rfl, nonempty, each⟩, mode⟩
  · rintro (⟨keys, field, op, value⟩ | ⟨keys, ⟨_, found, parts, rfl, nonempty, each⟩, mode⟩)
    · exact .comparison entries keys field op value
    · exact .combination entries parts keys found nonempty each mode

mutual

theorem check_condition_iff (pointer : Pointer) (condition : Json) :
    checkCondition pointer condition = [] ↔ IsCondition condition := by
  cases condition with
  | object entries =>
      have decides := check_parts_iff (pointer.child "conditions") entries
      have exclusive := shapes_exclusive pointer entries
      rw [condition_iff, ← check_comparison_iff pointer, ← check_combination_iff pointer entries decides,
        checkCondition, join_shapes_iff]
      change (_ ∧ checkCombination pointer entries ≠ []) ∨ (_ ∧ checkCombination pointer entries = []) ↔ _
      tauto
  | _ =>
      simp only [checkCondition]
      refine ⟨fun silent => absurd silent (violate_ne_nil _ _), ?_⟩
      rintro ⟨⟩
termination_by structural condition

theorem check_parts_iff (pointer : Pointer) (entries : List (String × Json)) :
    checkParts pointer entries = [] ↔ May "conditions" IsParts entries := by
  cases entries with
  | nil => simp [checkParts, May, Entries.find?]
  | cons entry rest =>
      rcases entry with ⟨key, value⟩
      by_cases same : key = "conditions"
      · subst same
        cases value with
        | array parts =>
            cases parts with
            | nil => simp [checkParts, May, Entries.find?, IsParts, IsNonemptyList, violate]
            | cons first others =>
                have decides := check_condition_iff (pointer ++ [.index 0]) first
                have rest := check_conditions_iff pointer 1 others
                simp [checkParts, May, Entries.find?, IsParts, IsNonemptyList, decides, rest]
        | _ => simp [checkParts, May, Entries.find?, IsParts, IsNonemptyList, violate]
      · unfold checkParts
        rw [if_neg same, check_parts_iff pointer rest]
        simp [May, Entries.find?, same]
termination_by structural entries

theorem check_conditions_iff (pointer : Pointer) (place : Nat) (conditions : List Json) :
    checkConditions pointer place conditions = [] ↔
      ∀ condition ∈ conditions, IsCondition condition := by
  cases conditions with
  | nil => simp [checkConditions]
  | cons condition rest =>
      simp only [checkConditions, List.append_eq_nil_iff,
        check_condition_iff (pointer ++ [.index place]) condition,
        check_conditions_iff pointer (place + 1) rest, List.forall_mem_cons]
termination_by structural conditions

end

theorem action_name_iff (text : String) (action : Action) :
    Action.ofName? text = some action ↔ text ∈ spellings action := by
  have named : Entries.find? text Action.named = some action ↔ text = action.name := by
    rw [Action.named, Entries.find_named_iff Action.name Action.all (by decide)]
    cases action <;> simp [Action.all, eq_comm]
  by_cases spare : text = Action.rawCodeAlias
  · rw [Action.ofName?, if_pos spare, spare]
    cases action <;> decide
  · rw [Action.ofName?, if_neg spare, named]
    cases action with
    | rawCode =>
        have other : text ≠ "playwright_code" := spare
        simp [spellings, Action.name, other]
    | _ => simp [spellings, Action.name]

theorem demands_required (action : Action) : demands action = action.requiredFields := by
  cases action <;> rfl

theorem action_of_iff (entries : Entries Json) (action : Action) :
    actionOf? entries = some action ↔ Must "action" (IsWordOf (spellings action)) entries := by
  unfold actionOf? Condition.text? Must
  cases Entries.find? "action" entries with
  | none => simp
  | some value => cases value <;> simp [string?, IsWordOf, action_name_iff]

theorem check_action_iff (pointer : Pointer) (value : Json) :
    checkAction pointer value = [] ↔ ∃ action, IsWordOf (spellings action) value := by
  rw [checkAction, check_text_iff]
  constructor
  · rintro ⟨text, rfl, silent⟩
    cases known : Action.ofName? text with
    | none => simp [known, violate] at silent
    | some action => exact ⟨action, text, (action_name_iff text action).mp known, rfl⟩
  · rintro ⟨action, text, spelled, rfl⟩
    exact ⟨text, rfl, by simp [(action_name_iff text action).mpr spelled]⟩

theorem action_rules_iff (pointer : Pointer) (entries : Entries Json) :
    ("action" ∈ Entries.keys entries ∧
        whenPresent "action" entries (checkAction (pointer.child "action")) = [] ∧
        (match actionOf? entries with
          | some action => requireKeys pointer action.requiredFields entries
          | none => []) = []) ↔
      ∃ action, Must "action" (IsWordOf (spellings action)) entries ∧
        ∀ field ∈ demands action, field ∈ Entries.keys entries := by
  simp only [demands_required]
  rw [when_present_iff _ _ _ _ (check_action_iff _)]
  constructor
  · rintro ⟨present, known, fields⟩
    obtain ⟨value, found, action, spelled⟩ := (must_iff _ _ _).mpr ⟨present, known⟩
    have must : Must "action" (IsWordOf (spellings action)) entries := ⟨value, found, spelled⟩
    rw [(action_of_iff entries action).mpr must, require_keys_iff] at fields
    exact ⟨action, must, fields⟩
  · rintro ⟨action, must, fields⟩
    rw [(action_of_iff entries action).mpr must, require_keys_iff]
    obtain ⟨present, known⟩ := (must_iff _ _ _).mp must
    exact ⟨present, fun value found => ⟨action, known value found⟩, fields⟩

theorem require_texts_iff (pointer : Pointer) (names : List String) (entries : Entries Json) :
    requireTexts pointer names entries = [] ↔ ∀ name ∈ names, May name IsText entries := by
  simp only [requireTexts, List.flatMap_eq_nil_iff, when_present_iff _ _ _ _ (require_text_iff _)]

theorem check_step_iff (pointer : Pointer) (value : Json) :
    checkStep pointer value = [] ↔ IsRecord StepRules value := by
  refine check_object_iff pointer _ StepRules (fun entries => ?_) value
  have demands := action_rules_iff pointer entries
  simp only [List.append_eq_nil_iff, require_keys_iff, allow_keys_iff, require_texts_iff,
    when_present_iff _ _ _ _ (require_nonempty_iff _), when_present_iff _ _ _ _ (require_scalar_iff _),
    when_present_iff _ _ _ _ (check_timeout_iff _), when_present_iff _ _ _ _ (require_pattern_iff _ _),
    when_present_iff _ _ _ _ (check_condition_iff _), List.forall_mem_cons, List.not_mem_nil,
    IsEmpty.forall_iff, implies_true, and_true]
  constructor
  · rintro ⟨⟨⟨⟨⟨⟨⟨⟨⟨⟨named, acting⟩, keys⟩, name⟩, known⟩, fields⟩, texts⟩, value⟩, timeout⟩, output⟩,
      condition⟩
    exact ⟨keys, (must_iff _ _ _).mpr ⟨named, name⟩, demands.mp ⟨acting, known, fields⟩, texts, value,
      timeout, output, condition⟩
  · rintro ⟨keys, name, action, texts, value, timeout, output, condition⟩
    obtain ⟨named, name⟩ := (must_iff _ _ _).mp name
    obtain ⟨acting, known, fields⟩ := demands.mpr action
    exact ⟨⟨⟨⟨⟨⟨⟨⟨⟨⟨named, acting⟩, keys⟩, name⟩, known⟩, fields⟩, texts⟩, value⟩, timeout⟩, output⟩,
      condition⟩

theorem check_steps_iff (pointer : Pointer) (value : Json) :
    checkSteps pointer value = [] ↔ IsNonemptyList (IsRecord StepRules) value := by
  cases value with
  | array steps =>
      have each := check_items_iff checkStep pointer _ check_step_iff 0 steps
      cases steps with
      | nil => simp [checkSteps, checkArray, IsNonemptyList, violate]
      | cons step rest => simpa [checkSteps, checkArray, IsNonemptyList] using each
  | _ => simp [checkSteps, checkArray, IsNonemptyList, violate]

theorem check_parameter_iff (pointer : Pointer) (value : Json) :
    checkParameter pointer value = [] ↔ IsRecord ParameterRules value := by
  refine check_object_iff pointer _ ParameterRules (fun entries => ?_) value
  simp only [List.append_eq_nil_iff, allow_keys_iff, require_texts_iff,
    when_present_iff _ _ _ _ (require_flag_iff _), List.forall_mem_cons, List.not_mem_nil,
    IsEmpty.forall_iff, implies_true, and_true]
  constructor
  · rintro ⟨⟨keys, type, description⟩, required⟩
    exact ⟨keys, type, description, required⟩
  · rintro ⟨keys, type, description, required⟩
    exact ⟨⟨keys, type, description⟩, required⟩

theorem check_extraction_iff (pointer : Pointer) (value : Json) :
    checkExtraction pointer value = [] ↔ IsRecord ExtractionRules value := by
  refine check_object_iff pointer _ ExtractionRules (fun entries => ?_) value
  simp only [List.append_eq_nil_iff, require_keys_iff, allow_keys_iff, require_texts_iff,
    List.forall_mem_cons, List.not_mem_nil, IsEmpty.forall_iff, implies_true, and_true]
  constructor
  · rintro ⟨⟨⟨fieldThere, promptThere⟩, keys⟩, field, prompt, type⟩
    exact ⟨keys, (must_iff _ _ _).mpr ⟨fieldThere, field⟩,
      (must_iff _ _ _).mpr ⟨promptThere, prompt⟩, type⟩
  · rintro ⟨keys, field, prompt, type⟩
    obtain ⟨fieldThere, field⟩ := (must_iff _ _ _).mp field
    obtain ⟨promptThere, prompt⟩ := (must_iff _ _ _).mp prompt
    exact ⟨⟨⟨fieldThere, promptThere⟩, keys⟩, field, prompt, type⟩

theorem check_output_iff (pointer : Pointer) (value : Json) :
    checkOutput pointer value = [] ↔ IsRecord OutputRules value := by
  refine check_object_iff pointer _ OutputRules (fun entries => ?_) value
  simp only [List.append_eq_nil_iff, allow_keys_iff, require_texts_iff, List.forall_mem_cons,
    List.not_mem_nil, IsEmpty.forall_iff, implies_true, and_true]
  exact ⟨fun ⟨keys, description⟩ => ⟨keys, description⟩,
    fun ⟨keys, description⟩ => ⟨keys, description⟩⟩

theorem check_input_iff (pointer : Pointer) (value : Json) :
    checkInput pointer value = [] ↔ IsTable (IsRecord ParameterRules) value :=
  check_table_iff checkParameter pointer _ check_parameter_iff value

theorem check_extract_iff (pointer : Pointer) (value : Json) :
    checkExtract pointer value = [] ↔ IsList (IsRecord ExtractionRules) value :=
  check_list_iff checkExtraction pointer _ check_extraction_iff value

theorem check_outputs_iff (pointer : Pointer) (value : Json) :
    checkOutputs pointer value = [] ↔ IsTable (IsRecord OutputRules) value :=
  check_table_iff checkOutput pointer _ check_output_iff value

theorem check_name_iff (pointer : Pointer) (value : Json) :
    checkName pointer value = [] ↔ IsTextIn Pattern.workflowName.language value := by
  rw [checkName, check_text_iff]
  refine exists_congr fun text => and_congr_right fun _ => ?_
  rw [← Pattern.accepts_iff]
  by_cases empty : text = ""
  · simp [empty, violate, Pattern.accepts, Pattern.isWorkflowName]
  · rw [if_neg (by simpa using empty)]
    split <;> simp_all [violate]

theorem check_iff (document : Json) : check document = [] ↔ IsWorkflow document := by
  refine check_object_iff [] _ WorkflowRules (fun entries => ?_) document
  simp only [List.append_eq_nil_iff, require_keys_iff, allow_keys_iff,
    when_present_iff _ _ _ _ (check_name_iff _), when_present_iff _ _ _ _ (require_text_iff _),
    when_present_iff _ _ _ _ (check_input_iff _), when_present_iff _ _ _ _ (require_object_iff _),
    when_present_iff _ _ _ _ (check_extract_iff _), when_present_iff _ _ _ _ (check_outputs_iff _),
    when_present_iff _ _ _ _ (check_steps_iff _), List.forall_mem_cons, List.not_mem_nil,
    IsEmpty.forall_iff, implies_true, and_true]
  constructor
  · rintro ⟨⟨⟨⟨⟨⟨⟨⟨⟨named, stepped⟩, keys⟩, name⟩, description⟩, input⟩, constants⟩, extract⟩, output⟩,
      steps⟩
    exact ⟨keys, (must_iff _ _ _).mpr ⟨named, name⟩, description, input, constants, extract, output,
      (must_iff _ _ _).mpr ⟨stepped, steps⟩⟩
  · rintro ⟨keys, name, description, input, constants, extract, output, steps⟩
    obtain ⟨named, name⟩ := (must_iff _ _ _).mp name
    obtain ⟨stepped, steps⟩ := (must_iff _ _ _).mp steps
    exact ⟨⟨⟨⟨⟨⟨⟨⟨⟨named, stepped⟩, keys⟩, name⟩, description⟩, input⟩, constants⟩, extract⟩, output⟩,
      steps⟩

theorem valid_iff_workflow (document : Json) : isValid document = true ↔ IsWorkflow document := by
  rw [isValid, List.isEmpty_iff]
  exact check_iff document

end BrowserFlow.Authoring
