import BrowserFlow.Program.Artifact
import BrowserFlow.Proofs.Workflow.Encoding
/-! Canonical artifacts. Documents that say the same compile to the same program, and so to the same text.
-/
set_option autoImplicit false

namespace BrowserFlow

open Json Authoring

namespace Condition

theorem group_of_parts (combination : Option Combination) (entries : Entries Json) :
    compileGroup combination entries = (Entries.find? "conditions" entries).elim (.error .partsMissing)
      fun value => compileGroup combination [("conditions", value)] := by
  induction entries with
  | nil => rfl
  | cons entry rest ih =>
      rcases entry with ⟨key, value⟩
      by_cases same : key = "conditions"
      · subst same
        rw [Entries.find?, if_pos rfl, Option.elim_some]
        cases value with
        | array items => cases items <;> simp [compileGroup]
        | _ => simp [compileGroup]
      · rw [group_passed combination key value rest same, Entries.find?, if_neg same, ih]

theorem parts_alike (parts others : List Json)
    (alike : List.Forall₂ (fun part other => compile part = compile other) parts others) :
    compileParts parts = compileParts others := by
  induction alike with
  | nil => rfl
  | cons first _ ih => rw [compileParts, compileParts, first, ih]

theorem group_alike (combination : Option Combination) (parts others : List Json)
    (alike : List.Forall₂ (fun part other => compile part = compile other) parts others) :
    compileGroup combination [("conditions", array parts)] =
      compileGroup combination [("conditions", array others)] := by
  cases alike with
  | nil => rfl
  | cons first rest =>
      cases combination with
      | none => rfl
      | some combination =>
          simp only [compileGroup, if_true, first, parts_alike _ _ rest]

theorem object_alike (entries others : Entries Json)
    (keys : ∀ key, Entries.contains key entries = Entries.contains key others)
    (rest : ∀ key, key ≠ "conditions" → Entries.find? key entries = Entries.find? key others)
    (grouped : ∀ combination, compileGroup combination entries = compileGroup combination others) :
    compile (object entries) = compile (object others) := by
  have single : comparison entries = comparison others := by
    simp only [comparison, text?, rest "field" (by decide), rest "op" (by decide),
      rest "value" (by decide)]
  have mode : combination? entries = combination? others := by
    simp only [combination?, text?, rest "match" (by decide)]
  simp only [compile, hasAny, keys, single, mode, grouped]

-- Induction on how the conditions say the same.
theorem same_condition_compiled (left right : Json) (same : SameCondition left right) :
    compile left = compile right := by
  induction same with
  | equal condition => rfl
  | reordered entries others same =>
      refine object_alike entries others (fun key => ?_) (fun key _ => same key) fun combination => ?_
      · rw [Bool.eq_iff_iff, Entries.contains_iff, Entries.contains_iff, same key]
      · rw [group_of_parts, group_of_parts combination others, same "conditions"]
  | combination entries others parts otherParts found otherFound length _ rest ih =>
      have alike : List.Forall₂ (fun part other => compile part = compile other) parts otherParts :=
        List.forall₂_iff_zip.mpr ⟨length, fun member => ih _ member⟩
      refine object_alike entries others (fun key => ?_) rest fun combination => ?_
      · rw [Bool.eq_iff_iff, Entries.contains_iff, Entries.contains_iff]
        by_cases conditions : key = "conditions"
        · simp [conditions, found, otherFound]
        · rw [rest key conditions]
      · rw [group_of_parts, group_of_parts combination others, found, otherFound]
        exact group_alike combination parts otherParts alike

end Condition

section

variable {entries others : Entries Json} (same : SameStep entries others)

include same

theorem same_guard (rules : StepRules entries) (otherRules : StepRules others) :
    (AuthoredStep.ofEntries entries).compileGuard = (AuthoredStep.ofEntries others).compileGuard := by
  have guard : ∀ all : Entries Json, StepRules all →
      (AuthoredStep.ofEntries all).guard = Entries.find? "when" all := fun all rules =>
    value_at_some "when" all IsCondition condition_somewhat rules.condition
  have name : (AuthoredStep.ofEntries entries).name = (AuthoredStep.ofEntries others).name := by
    simp only [AuthoredStep.ofEntries, textAt, Condition.text?, same.kept_field "name" (by decide)]
  rw [AuthoredStep.compileGuard, AuthoredStep.compileGuard, guard entries rules, guard others otherRules,
    name]
  rcases same.condition.cases with ⟨left, right⟩ | ⟨condition, other, left, right, conditions⟩
  · rw [left, right]
  · simp only [left, right, Condition.same_condition_compiled condition other conditions]

theorem same_operation (action : Action)
    (spelled : Must "action" (IsWordOf (spellings action)) entries) :
    Operation.ofEntries action entries = Operation.ofEntries action others := by
  have used := same.used_field action spelled
  have selector := same.kept_field "selector" (by decide)
  cases action with
  | navigate =>
      simp only [Operation.ofEntries, textAt, Condition.text?, used "url" (by decide)]
  | fill =>
      simp only [Operation.ofEntries, textAt, Condition.text?, selector, used "value" (by decide)]
  | click => simp only [Operation.ofEntries, textAt, Condition.text?, selector]
  | press =>
      simp only [Operation.ofEntries, textAt, Condition.text?, selector, used "key" (by decide)]
  | type => simp only [Operation.ofEntries, used "value" (by decide)]
  | select =>
      simp only [Operation.ofEntries, textAt, Condition.text?, selector, used "value" (by decide)]
  | fileUpload =>
      simp only [Operation.ofEntries, textAt, Condition.text?, selector, used "file" (by decide)]
  | wait =>
      simp only [Operation.ofEntries, textAt, Condition.text?, selector, used "timeout" (by decide)]
  | rawCode =>
      simp only [Operation.ofEntries, textAt, Condition.text?, used "code" (by decide)]

theorem same_step_compiled (rules : StepRules entries) (otherRules : StepRules others) (index : Nat) :
    (AuthoredStep.ofEntries entries).compile index = (AuthoredStep.ofEntries others).compile index := by
  obtain ⟨action, spelled, fields⟩ := rules.action
  rw [demands_required] at fields
  have otherSpelled := (same.spelled_iff action).mp spelled
  have otherFields : ∀ field ∈ action.requiredFields, field ∈ Entries.keys others := fun field needed =>
    (key_same field (same.used_field action spelled field (List.mem_append_left _ needed))).mp
      (fields field needed)
  have operation := operation_compiled entries rules action fields
  rw [same_operation same action spelled, ← operation_compiled others otherRules action otherFields]
    at operation
  have told : ∀ key ∈ ["name", "selector", "hint", "output"],
      Condition.text? key entries = Condition.text? key others := fun key listed => by
    have kept : key ∉ ["action", "when", "description", "url", "value", "key", "file", "code",
        "timeout"] := by
      simp only [List.mem_cons, List.not_mem_nil, or_false] at listed
      rcases listed with rfl | rfl | rfl | rfl <;> decide
    rw [Condition.text?, same.kept_field key kept, ← Condition.text?]
  have name : (AuthoredStep.ofEntries entries).name = (AuthoredStep.ofEntries others).name := by
    rw [AuthoredStep.ofEntries, AuthoredStep.ofEntries, textAt, told "name" (by simp), ← textAt]
  have selector : (AuthoredStep.ofEntries entries).selector = (AuthoredStep.ofEntries others).selector :=
    told "selector" (by simp)
  have hint : (AuthoredStep.ofEntries entries).hint = (AuthoredStep.ofEntries others).hint :=
    told "hint" (by simp)
  have output : (AuthoredStep.ofEntries entries).output = (AuthoredStep.ofEntries others).output :=
    told "output" (by simp)
  rw [AuthoredStep.compile, AuthoredStep.compile, spelled_known spelled, spelled_known otherSpelled,
    same_guard same rules otherRules, name, selector, hint, output]
  simp only [operation]

end

theorem same_record_compiled (index : Nat) (item other : Json) (same : SameRecord SameStep item other)
    (rules : IsRecord StepRules item) (otherRules : IsRecord StepRules other) :
    (AuthoredStep.ofEntries (entriesOf item)).compile index =
      (AuthoredStep.ofEntries (entriesOf other)).compile index := by
  rcases same with rfl | ⟨entries, others, rfl, rfl, same⟩
  · rfl
  · obtain ⟨_, ⟨⟩, rules⟩ := rules
    obtain ⟨_, ⟨⟩, otherRules⟩ := otherRules
    exact same_step_compiled same rules otherRules index

theorem same_steps_compiled (index : Nat) (items others : List Json)
    (same : List.Forall₂ (SameRecord SameStep) items others)
    (rules : ∀ item ∈ items, IsRecord StepRules item)
    (otherRules : ∀ item ∈ others, IsRecord StepRules item) :
    AuthoredStep.compileAll index (items.map fun item => .ofEntries (entriesOf item)) =
      AuthoredStep.compileAll index (others.map fun item => .ofEntries (entriesOf item)) := by
  induction same generalizing index with
  | nil => rfl
  | cons first _ ih =>
      rw [List.forall_mem_cons] at rules otherRules
      have head := same_record_compiled index _ _ first rules.1 otherRules.1
      rw [List.map_cons, List.map_cons, AuthoredStep.compileAll, AuthoredStep.compileAll, head,
        ih (index + 1) rules.2 otherRules.2]

theorem mapped_alike {β γ : Type} (f : β → γ) (items others : List β)
    (alike : List.Forall₂ (fun item other => f item = f other) items others) :
    items.map f = others.map f := by
  induction alike with
  | nil => rfl
  | cons first _ ih => rw [List.map_cons, List.map_cons, first, ih]

section

variable {α : Type} {make : Entries Json → α}
  (alike : ∀ entries others, Reordered entries others → make entries = make others)

include alike

theorem same_record_made (left right : Json) (same : SameRecord Reordered left right) :
    make (entriesOf left) = make (entriesOf right) := by
  rcases same with rfl | ⟨entries, others, rfl, rfl, same⟩
  · rfl
  · exact alike entries others same

theorem same_table_made (left right : Json) (same : SameTable Reordered left right) :
    tableOf make left = tableOf make right := by
  rcases same with rfl | ⟨entries, others, rfl, rfl, related⟩
  · rfl
  · exact mapped_alike (fun entry => (entry.1, make (entriesOf entry.2))) entries others
      (related.imp fun entry other related =>
        Prod.ext related.1 (same_record_made alike entry.2 other.2 related.2))

theorem same_list_made (left right : Json) (same : SameList Reordered left right) :
    listOf make left = listOf make right := by
  rcases same with rfl | ⟨items, others, rfl, rfl, related⟩
  · rfl
  · exact mapped_alike (fun item => make (entriesOf item)) items others
      (related.imp (same_record_made alike))

end

theorem same_field_made {α : Type} {same : Json → Json → Prop} (make : Json → α) (empty : α)
    (alike : ∀ left right, same left right → make left = make right) (key : String)
    (entries others : Entries Json) (related : SameAt same key entries others) :
    ((Entries.find? key entries).map make).getD empty =
      ((Entries.find? key others).map make).getD empty := by
  rcases related.cases with ⟨left, right⟩ | ⟨value, other, left, right, values⟩
  · rw [left, right]
  · rw [left, right, Option.map_some, Option.map_some, alike value other values]

theorem same_workflow_assembled (entries others : Entries Json) (same : SameWorkflow entries others)
    (rules : WorkflowRules entries) (otherRules : WorkflowRules others) :
    (Workflow.ofEntries entries).assemble = (Workflow.ofEntries others).assemble := by
  have name : (Workflow.ofEntries entries).name = (Workflow.ofEntries others).name := by
    simp only [Workflow.ofEntries, textAt, Condition.text?, same.rest "name" (by decide)]
  have description : (Workflow.ofEntries entries).description =
      (Workflow.ofEntries others).description := by
    simp only [Workflow.ofEntries, Condition.text?, same.rest "description" (by decide)]
  have constants : (Workflow.ofEntries entries).constants = (Workflow.ofEntries others).constants := by
    simp only [Workflow.ofEntries, same.rest "constants" (by decide)]
  have inputs : (Workflow.ofEntries entries).inputs = (Workflow.ofEntries others).inputs :=
    same_field_made _ [] (same_table_made fun _ _ => parameter_reordered) "input" entries others same.input
  have extractions : (Workflow.ofEntries entries).extractions =
      (Workflow.ofEntries others).extractions :=
    same_field_made _ [] (same_list_made fun _ _ => extraction_reordered) "extract" entries others
      same.extract
  have outputs : (Workflow.ofEntries entries).outputs = (Workflow.ofEntries others).outputs :=
    same_field_made _ [] (same_table_made fun _ _ => output_reordered) "output" entries others same.output
  have steps : AuthoredStep.compileAll 0 (Workflow.ofEntries entries).steps =
      AuthoredStep.compileAll 0 (Workflow.ofEntries others).steps := by
    obtain ⟨_, found, items, rfl, _, each⟩ := rules.steps
    obtain ⟨_, otherFound, otherItems, rfl, _, otherEach⟩ := otherRules.steps
    have related := same.steps
    rw [SameAt, found, otherFound, Option.rel_some_some] at related
    rw [Workflow.ofEntries, Workflow.ofEntries, found, otherFound]
    rcases related with equal | ⟨_, _, ⟨⟩, ⟨⟩, related⟩
    · rw [equal]
    · exact same_steps_compiled 0 items otherItems related each otherEach
  rw [Workflow.assemble, Workflow.assemble, name, description, constants, inputs, extractions, outputs,
    steps]

theorem artifacts_canonical (left right : Json) (leftProper : left.wellFormed = true)
    (rightProper : right.wellFormed = true) (same : SameDocument left right) :
    (isValid left = true ↔ isValid right = true) ∧
      (isValid left = true → ∃ first second, compile left = .ok first ∧ compile right = .ok second ∧
        first = second ∧ first.artifactText = second.artifactText) := by
  refine ⟨restated_valid_iff left right same, fun valid => ?_⟩
  have otherValid := (restated_valid_iff left right same).mp valid
  obtain ⟨program, compiled, _⟩ := document_stands left leftProper (List.isEmpty_iff.mp valid)
  refine ⟨program, program, compiled, ?_, rfl, rfl⟩
  rcases same with rfl | ⟨entries, others, rfl, rfl, same⟩
  · exact compiled
  · obtain ⟨_, ⟨⟩, rules⟩ := (valid_iff_workflow _).mp valid
    obtain ⟨_, ⟨⟩, otherRules⟩ := (valid_iff_workflow _).mp otherValid
    rw [compile_assembles others rightProper otherRules,
      ← same_workflow_assembled entries others same rules otherRules,
      ← compile_assembles entries leftProper rules, compiled]

def loudParameter : Entries Json :=
  [("type", string "flag"), ("default", bool true)]

def loudComparison : Entries Json :=
  [("field", string "input.loud"), ("op", string "=="), ("value", bool true)]

def reminderStep : Entries Json :=
  [("name", string "Shout"), ("action", string "raw_code"), ("code", string "alert(1)"),
    ("description", string "Be loud."),
    ("when", object [("match", string "all"), ("conditions", array [object loudComparison])])]

def reminder : Json :=
  object [("name", string "reminder"), ("input", object [("loud", object loudParameter)]),
    ("steps", array [object reminderStep])]

def restatedStep : Entries Json :=
  [("when", object [("conditions", array [object loudComparison.reverse]), ("match", string "all")]),
    ("code", string "alert(1)"), ("action", string "playwright_code"), ("url", string "https://a.test/"),
    ("name", string "Shout")]

def restatedReminder : Json :=
  object [("steps", array [object restatedStep]), ("name", string "reminder"),
    ("input", object [("loud", object loudParameter.reverse)])]

theorem reversed_same (entries : Entries Json) (distinct : (Entries.keys entries).Nodup) :
    Reordered entries entries.reverse :=
  (Reordered.permuted_iff distinct (by simpa [Entries.keys] using distinct)).mpr
    (List.reverse_perm entries).symm

theorem step_restated : SameStep reminderStep restatedStep where
  action := .inr ⟨⟨_, rfl, "raw_code", by decide, rfl⟩, ⟨_, rfl, "playwright_code", by decide, rfl⟩⟩
  condition := .some (.combination _ _ [object loudComparison] [object loudComparison.reverse] rfl rfl rfl
    (by simpa using .reordered _ _ (reversed_same loudComparison (by decide)))
    fun key other => by simp [Entries.find?, Ne.symm other])
  fields := fun key action guard => by
    by_cases description : key = "description"
    · subst description
      exact .inr ⟨.inl rfl, by simp [May, reminderStep, Entries.find?, fieldRule, IsText],
        by simp [May, restatedStep, Entries.find?]⟩
    · by_cases url : key = "url"
      · subst url
        refine .inr ⟨.inr ⟨by decide, .rawCode, ⟨_, rfl, "raw_code", by decide, rfl⟩, by decide⟩, ?_, ?_⟩
        · simp [May, reminderStep, Entries.find?]
        · simp [May, restatedStep, Entries.find?, fieldRule, IsText]
      · left
        simp only [reminderStep, restatedStep, Entries.find?, if_neg (Ne.symm action),
          if_neg (Ne.symm guard), if_neg (Ne.symm description), if_neg (Ne.symm url)]
        by_cases name : "name" = key
        · rw [if_pos name, if_pos name, if_neg (name ▸ by decide)]
        · rw [if_neg name, if_neg name]

theorem reminder_restated : SameDocument reminder restatedReminder := by
  refine .inr ⟨_, _, rfl, rfl, ?_, .none, .none, ?_, fun key listed => ?_⟩
  · refine .some (.inr ⟨_, _, rfl, rfl, .cons ⟨rfl, .inr ⟨_, _, rfl, rfl, ?_⟩⟩ .nil⟩)
    exact reversed_same loudParameter (by decide)
  · exact .some (.inr ⟨_, _, rfl, rfl, .cons (.inr ⟨_, _, rfl, rfl, step_restated⟩) .nil⟩)
  · simp only [List.mem_cons, List.not_mem_nil, or_false, not_or] at listed
    simp only [Entries.find?, if_neg (Ne.symm listed.1), if_neg (Ne.symm listed.2.2.2)]

theorem artifacts_canonical_reminder :
    reminder.wellFormed = true ∧ restatedReminder.wellFormed = true ∧
      SameDocument reminder restatedReminder ∧ isValid restatedReminder = true ∧
      ∃ first second, compile reminder = .ok first ∧ compile restatedReminder = .ok second ∧
        first = second ∧ first.artifactText = second.artifactText := by
  have proper : reminder.wellFormed = true := by decide
  have otherProper : restatedReminder.wellFormed = true := by decide
  have valid : isValid reminder = true := rfl
  obtain ⟨both, compiled⟩ := artifacts_canonical reminder restatedReminder proper otherProper
    reminder_restated
  exact ⟨proper, otherProper, reminder_restated, both.mp valid, compiled valid⟩

end BrowserFlow
