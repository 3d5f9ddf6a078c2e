import Mathlib.Data.List.Forall2
import BrowserFlow.Proofs.Authoring.Acceptance
import BrowserFlow.Proofs.Authoring.Reordered
/-! Documents that say the same: with the keys of their objects in another order, with other words for an
action or about a step, and with other fields that the action of a step does not use. The check makes no
difference between them. -/
set_option autoImplicit false

namespace BrowserFlow

def Action.usedFields (action : Action) : List String :=
  action.requiredFields ++ if action = .wait then ["timeout"] else []

namespace Authoring

open Json

section

variable (same : Entries Json → Entries Json → Prop)

def SameRecord (left right : Json) : Prop :=
  left = right ∨ ∃ entries others, left = object entries ∧ right = object others ∧ same entries others

-- A table keeps the order of its keys.
def SameTable (left right : Json) : Prop :=
  left = right ∨ ∃ entries others, left = object entries ∧ right = object others ∧
    List.Forall₂ (fun entry other => entry.1 = other.1 ∧ SameRecord same entry.2 other.2) entries others

def SameList (left right : Json) : Prop :=
  left = right ∨ ∃ items others, left = array items ∧ right = array others ∧
    List.Forall₂ (SameRecord same) items others

end

def SameAt (same : Json → Json → Prop) (key : String) (entries others : Entries Json) : Prop :=
  Option.Rel same (Entries.find? key entries) (Entries.find? key others)

theorem SameAt.cases {same : Json → Json → Prop} {key : String} {entries others : Entries Json}
    (related : SameAt same key entries others) :
    Entries.find? key entries = none ∧ Entries.find? key others = none ∨
      ∃ value other, Entries.find? key entries = some value ∧ Entries.find? key others = some other ∧
        same value other := by
  unfold SameAt at related
  generalize Entries.find? key entries = left at related ⊢
  generalize Entries.find? key others = right at related ⊢
  cases related with
  | none => exact .inl ⟨rfl, rfl⟩
  | some values => exact .inr ⟨_, _, rfl, rfl, values⟩

theorem SameAt.of_found {same : Json → Json → Prop} {key : String} {entries others : Entries Json}
    (reflexive : ∀ value, same value value)
    (found : Entries.find? key entries = Entries.find? key others) : SameAt same key entries others := by
  rw [SameAt, found]
  cases Entries.find? key others with
  | none => exact .none
  | some value => exact .some (reflexive value)

inductive SameCondition : Json → Json → Prop where
  | equal (condition : Json) : SameCondition condition condition
  | reordered (entries others : Entries Json) (same : Reordered entries others) :
      SameCondition (object entries) (object others)
  | combination (entries others : Entries Json) (parts otherParts : List Json)
      (found : Entries.find? "conditions" entries = some (array parts))
      (otherFound : Entries.find? "conditions" others = some (array otherParts))
      (length : parts.length = otherParts.length)
      (each : ∀ pair ∈ parts.zip otherParts, SameCondition pair.1 pair.2)
      (rest : ∀ key, key ≠ "conditions" → Entries.find? key entries = Entries.find? key others) :
      SameCondition (object entries) (object others)

def fieldRule (key : String) : Json → Prop :=
  if key = "value" then IsScalar else if key = "timeout" then IsMilliseconds else IsText

def Idle (key : String) (entries : Entries Json) : Prop :=
  key = "description" ∨ key ∈ ["url", "value", "key", "file", "code", "timeout"] ∧
    ∃ action, Must "action" (IsWordOf (spellings action)) entries ∧ key ∉ action.usedFields

structure SameStep (entries others : Entries Json) : Prop where
  action : Entries.find? "action" entries = Entries.find? "action" others ∨
    Must "action" (IsWordOf (spellings .rawCode)) entries ∧
      Must "action" (IsWordOf (spellings .rawCode)) others
  condition : SameAt SameCondition "when" entries others
  fields : ∀ key, key ≠ "action" → key ≠ "when" →
    Entries.find? key entries = Entries.find? key others ∨
      Idle key entries ∧ May key (fieldRule key) entries ∧ May key (fieldRule key) others

structure SameWorkflow (entries others : Entries Json) : Prop where
  input : SameAt (SameTable Reordered) "input" entries others
  extract : SameAt (SameList Reordered) "extract" entries others
  output : SameAt (SameTable Reordered) "output" entries others
  steps : SameAt (SameList SameStep) "steps" entries others
  rest : ∀ key, key ∉ ["input", "extract", "output", "steps"] →
    Entries.find? key entries = Entries.find? key others

def SameDocument : Json → Json → Prop := SameRecord SameWorkflow

def Respects {α : Type} (same : α → α → Prop) (rule : α → Prop) : Prop :=
  ∀ left right, same left right → (rule left ↔ rule right)

theorem each_iff {α : Type} (property other : α → Prop) (items others : List α)
    (related : List.Forall₂ (fun left right => property left ↔ other right) items others) :
    (∀ item ∈ items, property item) ↔ ∀ item ∈ others, other item := by
  induction related with
  | nil => exact iff_of_true nofun nofun
  | cons first _ ih => rw [List.forall_mem_cons, List.forall_mem_cons, first, ih]

section

variable {same : Entries Json → Entries Json → Prop} {rules : Entries Json → Prop}
  (respects : Respects same rules)

include respects

theorem record_respected : Respects (SameRecord same) (IsRecord rules) := by
  rintro left right (rfl | ⟨entries, others, rfl, rfl, related⟩)
  · exact Iff.rfl
  · simp only [IsRecord, object.injEq, exists_eq_left', respects entries others related]

theorem table_respected : Respects (SameTable same) (IsTable (IsRecord rules)) := by
  rintro left right (rfl | ⟨entries, others, rfl, rfl, related⟩)
  · exact Iff.rfl
  · have each := each_iff (fun entry => IsRecord rules entry.2) (fun entry => IsRecord rules entry.2)
      entries others (related.imp fun entry other related =>
        record_respected respects entry.2 other.2 related.2)
    simp only [IsTable, IsRecord, object.injEq, exists_eq_left'] at each ⊢
    exact each

theorem items_respected (items others : List Json) (related : List.Forall₂ (SameRecord same) items others) :
    (∀ item ∈ items, IsRecord rules item) ↔ ∀ item ∈ others, IsRecord rules item :=
  each_iff _ _ items others (related.imp (record_respected respects))

theorem list_respected : Respects (SameList same) (IsList (IsRecord rules)) := by
  rintro left right (rfl | ⟨items, others, rfl, rfl, related⟩)
  · exact Iff.rfl
  · simp only [IsList, array.injEq, exists_eq_left', items_respected respects items others related]

theorem nonempty_list_respected : Respects (SameList same) (IsNonemptyList (IsRecord rules)) := by
  rintro left right (rfl | ⟨items, others, rfl, rfl, related⟩)
  · exact Iff.rfl
  · have empty : items = [] ↔ others = [] := by cases related <;> simp
    simp only [IsNonemptyList, array.injEq, exists_eq_left', ne_eq, empty,
      items_respected respects items others related]

end

section

variable {same : Json → Json → Prop} {rule : Json → Prop} (respects : Respects same rule) (key : String)
  {entries others : Entries Json} (related : SameAt same key entries others)

include respects related

theorem may_respected : May key rule entries ↔ May key rule others := by
  rcases related.cases with ⟨left, right⟩ | ⟨value, other, left, right, values⟩
  · simp [May, left, right]
  · simp [May, left, right, respects value other values]

theorem must_respected : Must key rule entries ↔ Must key rule others := by
  rcases related.cases with ⟨left, right⟩ | ⟨value, other, left, right, values⟩
  · simp [Must, left, right]
  · simp [Must, left, right, respects value other values]

end

theorem condition_reordered (entries others : Entries Json) (same : Reordered entries others)
    (condition : IsCondition (object entries)) : IsCondition (object others) := by
  have only : ∀ names, OnlyKeys names entries → OnlyKeys names others := fun names =>
    (only_keys_same names fun key _ => same key).mp
  cases condition with
  | comparison _ keys field op value =>
      exact .comparison others (only _ keys) ((must_same _ _ (same _)).mp field)
        ((must_same _ _ (same _)).mp op) ((must_same _ _ (same _)).mp value)
  | combination _ parts keys found nonempty each mode =>
      exact .combination others parts (only _ keys) ((same _).symm.trans found) nonempty each
        ((must_same _ _ (same _)).mp mode)

theorem combination_iff (entries : Entries Json) (parts : List Json)
    (found : Entries.find? "conditions" entries = some (array parts)) :
    IsCondition (object entries) ↔ OnlyKeys ["conditions", "match"] entries ∧ parts ≠ [] ∧
      (∀ part ∈ parts, IsCondition part) ∧ Must "match" (IsWordOf ["all", "any"]) entries := by
  constructor
  · intro condition
    cases condition with
    | comparison _ keys field op value =>
        exact absurd (keys "conditions" (Entries.key_of_found _ _ _ found)) (by decide)
    | combination _ others keys again nonempty each mode =>
        rw [found, Option.some.injEq, array.injEq] at again
        subst again
        exact ⟨keys, nonempty, each, mode⟩
  · rintro ⟨keys, nonempty, each, mode⟩
    exact .combination entries parts keys found nonempty each mode

-- Induction on how the conditions say the same: the parts of a group are respected one by one.
theorem condition_respected : Respects SameCondition IsCondition := by
  intro left right related
  induction related with
  | equal condition => exact Iff.rfl
  | reordered entries others same =>
      exact ⟨condition_reordered entries others same, condition_reordered others entries same.symm⟩
  | combination entries others parts otherParts found otherFound length _ rest ih =>
      have parted : List.Forall₂ (fun part other => IsCondition part ↔ IsCondition other) parts
          otherParts := List.forall₂_iff_zip.mpr ⟨length, fun member => ih _ member⟩
      have each := each_iff IsCondition IsCondition parts otherParts parted
      have empty : parts = [] ↔ otherParts = [] := by
        rw [← List.length_eq_zero_iff, length, List.length_eq_zero_iff]
      have only : OnlyKeys ["conditions", "match"] entries ↔ OnlyKeys ["conditions", "match"] others :=
        only_keys_same _ fun key foreign => rest key fun same => foreign (by simp [same])
      rw [combination_iff entries parts found, combination_iff others otherParts otherFound, only, each,
        must_same "match" _ (rest "match" (by decide)), ne_eq, empty]

theorem text_rule (key : String) (value : key ≠ "value") (timeout : key ≠ "timeout") :
    fieldRule key = IsText := by
  rw [fieldRule, if_neg value, if_neg timeout]

theorem used_listed (action : Action) :
    ∀ key ∈ action.usedFields, key ∉ ["action", "when", "description"] := by
  cases action <;> decide

theorem idle_listed {key : String} {entries : Entries Json} (idle : Idle key entries) :
    key ∈ ["description", "url", "value", "key", "file", "code", "timeout"] := by
  rcases idle with rfl | ⟨listed, _⟩
  · exact List.mem_cons_self
  · exact List.mem_cons_of_mem _ listed

namespace SameStep

variable {entries others : Entries Json} (same : SameStep entries others)

include same

theorem spelled_iff (action : Action) : Must "action" (IsWordOf (spellings action)) entries ↔
    Must "action" (IsWordOf (spellings action)) others := by
  rcases same.action with equal | ⟨left, right⟩
  · exact must_same _ _ equal
  · rw [← action_of_iff, ← action_of_iff, (action_of_iff _ _).mpr left, (action_of_iff _ _).mpr right]

theorem busy_field (key : String) (listed : key ∉ ["action", "when"]) (busy : ¬ Idle key entries) :
    Entries.find? key entries = Entries.find? key others := by
  simp only [List.mem_cons, List.not_mem_nil, or_false, not_or] at listed
  exact (same.fields key listed.1 listed.2).resolve_right fun idle => busy idle.1

theorem kept_field (key : String) (listed : key ∉ ["action", "when", "description", "url", "value", "key",
    "file", "code", "timeout"]) : Entries.find? key entries = Entries.find? key others := by
  simp only [List.mem_cons, not_or] at listed
  refine same.busy_field key (by simp [listed]) fun idle => ?_
  have listed := idle_listed idle
  simp_all

theorem used_field (action : Action) (spelled : Must "action" (IsWordOf (spellings action)) entries)
    (key : String) (used : key ∈ action.usedFields) :
    Entries.find? key entries = Entries.find? key others := by
  have listed := used_listed action key used
  simp only [List.mem_cons, not_or] at listed
  refine same.busy_field key (by simp [listed]) ?_
  rintro (description | ⟨_, other, otherSpelled, unused⟩)
  · exact listed.2.2.1 description
  · have known := (action_of_iff entries action).mpr spelled
    rw [(action_of_iff entries other).mpr otherSpelled, Option.some.injEq] at known
    exact unused (known ▸ used)

theorem may_field (key : String) (action : key ≠ "action") (guard : key ≠ "when") :
    May key (fieldRule key) entries ↔ May key (fieldRule key) others := by
  rcases same.fields key action guard with equal | ⟨_, left, right⟩
  · exact may_same _ _ equal
  · exact iff_of_true left right

end SameStep

theorem step_respected : Respects SameStep StepRules := by
  intro entries others same
  have keys : OnlyKeys ["name", "action", "selector", "url", "value", "key", "file", "timeout", "code",
      "hint", "when", "output", "description"] entries ↔ OnlyKeys _ others :=
    only_keys_same _ fun key foreign => same.kept_field key fun listed => foreign (by
      simp only [List.mem_cons, List.not_mem_nil, or_false] at listed ⊢
      tauto)
  have name := must_same "name" IsNonemptyText (same.kept_field "name" (by decide))
  have action : (∃ action, Must "action" (IsWordOf (spellings action)) entries ∧
      ∀ field ∈ demands action, field ∈ Entries.keys entries) ↔
      ∃ action, Must "action" (IsWordOf (spellings action)) others ∧
        ∀ field ∈ demands action, field ∈ Entries.keys others := by
    refine exists_congr fun action => ?_
    rw [← same.spelled_iff action, demands_required]
    refine and_congr_right fun spelled => forall₂_congr fun field needed => ?_
    exact key_same field (same.used_field action spelled field (List.mem_append_left _ needed))
  have texts : (∀ key ∈ ["selector", "url", "key", "file", "code", "hint", "description"],
      May key IsText entries) ↔ ∀ key ∈ ["selector", "url", "key", "file", "code", "hint", "description"],
      May key IsText others := by
    refine forall₂_congr fun key listed => ?_
    simp only [List.mem_cons, List.not_mem_nil, or_false] at listed
    rw [← text_rule key (by rintro rfl; simp at listed) (by rintro rfl; simp at listed)]
    exact same.may_field key (by rintro rfl; simp at listed) (by rintro rfl; simp at listed)
  have value : May "value" IsScalar entries ↔ May "value" IsScalar others :=
    same.may_field "value" (by decide) (by decide)
  have timeout : May "timeout" IsMilliseconds entries ↔ May "timeout" IsMilliseconds others :=
    same.may_field "timeout" (by decide) (by decide)
  have output := may_same "output" (IsTextIn Pattern.identifier) (same.kept_field "output" (by decide))
  have condition := may_respected condition_respected "when" same.condition
  constructor
  · intro rules
    exact ⟨keys.mp rules.keys, name.mp rules.name, action.mp rules.action, texts.mp rules.texts,
      value.mp rules.value, timeout.mp rules.timeout, output.mp rules.output,
      condition.mp rules.condition⟩
  · intro rules
    exact ⟨keys.mpr rules.keys, name.mpr rules.name, action.mpr rules.action, texts.mpr rules.texts,
      value.mpr rules.value, timeout.mpr rules.timeout, output.mpr rules.output,
      condition.mpr rules.condition⟩

theorem step_rules_reordered {entries others : Entries Json} (same : Reordered entries others)
    (rules : StepRules entries) : StepRules others := by
  have restated : SameStep entries others :=
    ⟨.inl (same _), .of_found SameCondition.equal (same _), fun key _ _ => .inl (same key)⟩
  exact (step_respected entries others restated).mp rules

theorem parameter_respected : Respects Reordered ParameterRules := fun _ _ same =>
  ⟨parameter_rules_reordered same, parameter_rules_reordered same.symm⟩

theorem extraction_respected : Respects Reordered ExtractionRules := fun _ _ same =>
  ⟨extraction_rules_reordered same, extraction_rules_reordered same.symm⟩

theorem output_respected : Respects Reordered OutputRules := fun _ _ same =>
  ⟨output_rules_reordered same, output_rules_reordered same.symm⟩

theorem workflow_respected : Respects SameWorkflow WorkflowRules := by
  intro entries others same
  have keys : OnlyKeys ["name", "description", "input", "constants", "extract", "output", "steps"] entries ↔
      OnlyKeys _ others :=
    only_keys_same _ fun key foreign => same.rest key fun listed => foreign (by
      simp only [List.mem_cons, List.not_mem_nil, or_false] at listed ⊢
      tauto)
  have name := must_same "name" (IsTextIn Pattern.workflowName.language) (same.rest "name" (by decide))
  have description := may_same "description" IsText (same.rest "description" (by decide))
  have constants := may_same "constants" (IsRecord fun _ => True) (same.rest "constants" (by decide))
  have input := may_respected (table_respected parameter_respected) "input" same.input
  have extract := may_respected (list_respected extraction_respected) "extract" same.extract
  have output := may_respected (table_respected output_respected) "output" same.output
  have steps := must_respected (nonempty_list_respected step_respected) "steps" same.steps
  constructor
  · intro rules
    exact ⟨keys.mp rules.keys, name.mp rules.name, description.mp rules.description,
      input.mp rules.input, constants.mp rules.constants, extract.mp rules.extract,
      output.mp rules.output, steps.mp rules.steps⟩
  · intro rules
    exact ⟨keys.mpr rules.keys, name.mpr rules.name, description.mpr rules.description,
      input.mpr rules.input, constants.mpr rules.constants, extract.mpr rules.extract,
      output.mpr rules.output, steps.mpr rules.steps⟩

theorem restated_valid_iff (left right : Json) (same : SameDocument left right) :
    isValid left = true ↔ isValid right = true := by
  rw [valid_iff_workflow, valid_iff_workflow]
  exact record_respected workflow_respected left right same

end Authoring

end BrowserFlow
