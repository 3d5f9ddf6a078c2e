import BrowserFlow.Proofs.Authoring.Acceptance
import BrowserFlow.Proofs.Authoring.Pointer
import BrowserFlow.Proofs.Json.WellFormed
/-! The report about a document is true: each violation points to a value of the document that breaks the
rule with its keyword and parameters, and no two violations say the same.

Each part of the check makes a report under its own pointer. Reports about one value are put together when
their labels differ, that is, when no violation of one can be a violation of the other. -/
set_option autoImplicit false

namespace BrowserFlow

open Json

-- A whole number is also a number.
def Json.typeNames : Json → List String
  | null => ["null"]
  | bool _ => ["boolean"]
  | integer _ => ["integer", "number"]
  | float _ => ["number"]
  | string _ => ["string"]
  | array _ => ["array"]
  | object _ => ["object"]

namespace Authoring

def conditionPointer (step : Nat) (parts : List Nat) : Pointer :=
  [.key "steps", .index step, .key "when"] ++
    parts.flatMap fun part => [.key "conditions", .index part]

theorem condition_pointer_part (step : Nat) (parts : List Nat) (part : Nat) :
    (conditionPointer step parts).child "conditions" ++ [.index part] =
      conditionPointer step (parts ++ [part]) := by
  simp [conditionPointer, Pointer.child]

inductive AllowedAt : Pointer → List String → Prop where
  | workflow :
      AllowedAt [] ["name", "description", "input", "constants", "extract", "output", "steps"]
  | parameter (name : String) :
      AllowedAt [.key "input", .key name] ["type", "required", "default", "description", "example"]
  | extraction (place : Nat) :
      AllowedAt [.key "extract", .index place] ["field", "prompt", "type"]
  | output (name : String) : AllowedAt [.key "output", .key name] ["description"]
  | step (place : Nat) :
      AllowedAt [.key "steps", .index place] ["name", "action", "selector", "url", "value", "key",
        "file", "timeout", "code", "hint", "when", "output", "description"]
  | condition (step : Nat) (parts : List Nat) :
      AllowedAt (conditionPointer step parts) ["field", "op", "value", "conditions", "match"]

-- What a violation with a keyword and parameters says about the value at its place.
inductive Breaks (place : Pointer) : Json → String → Json → Prop where
  | required (entries : Entries Json) (property : String) (absent : property ∉ Entries.keys entries) :
      Breaks place (object entries) "required" (object [("missingProperty", string property)])
  | additionalProperties (entries : Entries Json) (property : String) (allowed : List String)
      (there : property ∈ Entries.keys entries) (rule : AllowedAt place allowed)
      (foreign : property ∉ allowed) :
      Breaks place (object entries) "additionalProperties"
        (object [("additionalProperty", string property)])
  | type (value : Json) (names : String)
      (none : ∀ name ∈ Text.split ',' names, name ∉ value.typeNames) :
      Breaks place value "type" (object [("type", string names)])
  | enum (text : String) (words : List String) (foreign : text ∉ words) :
      Breaks place (string text) "enum" (object [("allowedValues", strings words)])
  | pattern (text : String) (pattern : Pattern) (misfit : text.toList ∉ pattern.language) :
      Breaks place (string text) "pattern" (object [("pattern", string pattern.source)])
  | minLength (text : String) (limit : Nat) (short : text.length < limit) :
      Breaks place (string text) "minLength" (object [("limit", integer limit)])
  | minItems (items : List Json) (limit : Nat) (few : items.length < limit) :
      Breaks place (array items) "minItems" (object [("limit", integer limit)])
  | minimum (whole limit : Int) (small : whole < limit) :
      Breaks place (integer whole) "minimum"
        (object [("comparison", string ">="), ("limit", integer limit)])
  | oneOf (value : Json) (neither : ¬ IsCondition value) :
      Breaks place value "oneOf" (object [("passingSchemas", null)])

theorem kind_names (kind : Kind) :
    Text.split ',' kind.name = match kind with
      | .object => ["object"]
      | .array => ["array"]
      | .text => ["string"]
      | .truth => ["boolean"]
      | .integer => ["integer"]
      | .scalar => ["string", "number", "boolean"] := by
  cases kind <;> decide

theorem kind_breaks (place : Pointer) (kind : Kind) (value : Json) (wrong : kind.accepts value = false) :
    Breaks place value "type" (object [("type", string kind.name)]) := by
  refine .type value kind.name ?_
  rw [kind_names]
  cases kind <;> cases value <;>
    simp_all [Kind.accepts, typeNames, isScalar, isNumber]

inductive Label where
  | missing (property : String)
  | additional
  | own
  | child (token : Token)
deriving DecidableEq

-- What a violation below a value is about: one of its parts, or a rule for the value as a whole.
def labelOf : Pointer → Defect → Label
  | token :: _, _ => .child token
  | [], .missing property => .missing property
  | [], .additional _ => .additional
  | [], _ => .own

structure Report (pointer : Pointer) (value : Json) (labels : List Label)
    (violations : List Violation) : Prop where
  once : violations.Nodup
  located : ∀ violation ∈ violations, ∃ rest found,
    violation.pointer = pointer ++ rest ∧ rest.follow? value = some found ∧
      Breaks violation.pointer found violation.defect.keyword violation.defect.params ∧
      labelOf rest violation.defect ∈ labels

def Reported (pointer : Pointer) (value : Json) (violations : List Violation) : Prop :=
  ∃ labels, Report pointer value labels violations

section

variable {pointer : Pointer} {value : Json} {labels more : List Label}
  {violations others : List Violation}

theorem Report.nil : Report pointer value labels [] :=
  ⟨List.nodup_nil, by simp⟩

theorem Report.weaken (report : Report pointer value labels violations)
    (included : ∀ label ∈ labels, label ∈ more) : Report pointer value more violations := by
  refine ⟨report.once, fun violation member => ?_⟩
  obtain ⟨rest, found, placed, there, breaks, labelled⟩ := report.located violation member
  exact ⟨rest, found, placed, there, breaks, included _ labelled⟩

theorem Report.append (report : Report pointer value labels violations)
    (other : Report pointer value more others) (separate : ∀ label ∈ labels, label ∉ more) :
    Report pointer value (labels ++ more) (violations ++ others) := by
  constructor
  · apply List.Nodup.append report.once other.once
    intro violation left right
    obtain ⟨rest, _, placed, _, _, labelled⟩ := report.located violation left
    obtain ⟨again, _, placedAgain, _, _, labelledAgain⟩ := other.located violation right
    rw [placed, List.append_cancel_left_eq] at placedAgain
    exact separate _ labelled (placedAgain ▸ labelledAgain)
  · intro violation member
    cases List.mem_append.mp member with
    | inl left =>
        exact (report.weaken fun _ => List.mem_append_left more).located violation left
    | inr right =>
        exact (other.weaken fun _ => List.mem_append_right labels).located violation right

theorem report_violate (defect : Defect)
    (breaks : Breaks pointer value defect.keyword defect.params) :
    Report pointer value [labelOf [] defect] (violate pointer defect) := by
  refine ⟨List.nodup_singleton _, fun violation member => ?_⟩
  cases List.mem_singleton.mp member
  exact ⟨[], value, (List.append_nil _).symm, rfl, breaks, List.mem_singleton_self _⟩

theorem report_child (token : Token) (part : Json) (stepped : token.step? value = some part)
    (report : Reported (pointer ++ [token]) part violations) :
    Report pointer value [.child token] violations := by
  obtain ⟨_, report⟩ := report
  refine ⟨report.once, fun violation member => ?_⟩
  obtain ⟨rest, found, placed, there, breaks, _⟩ := report.located violation member
  refine ⟨token :: rest, found, by simpa using placed, ?_, breaks, List.mem_singleton_self _⟩
  rw [Pointer.follow?, stepped]
  exact there

theorem require_kind_report (kind : Kind) :
    Report pointer value [.own] (requireKind pointer kind value) := by
  unfold requireKind
  split
  · exact Report.nil
  · rename_i wrong
    exact report_violate (.wrongKind kind) (kind_breaks pointer kind value (by simpa using wrong))

theorem check_text_report (check : String → List Violation)
    (inner : ∀ text, value = string text → Report pointer value [.own] (check text)) :
    Report pointer value [.own] (checkText pointer check value) := by
  cases value with
  | string text => exact inner text rfl
  | _ => exact report_violate (.wrongKind .text) (kind_breaks pointer .text _ rfl)

theorem check_object_report (check : Entries Json → List Violation)
    (inner : ∀ entries, value = object entries → Reported pointer value (check entries)) :
    Reported pointer value (checkObject pointer check value) := by
  cases value with
  | object entries => exact inner entries rfl
  | _ => exact ⟨_, report_violate (.wrongKind .object) (kind_breaks pointer .object _ rfl)⟩

theorem check_array_report (check : List Json → List Violation)
    (inner : ∀ items, value = array items → Reported pointer value (check items)) :
    Reported pointer value (checkArray pointer check value) := by
  cases value with
  | array items => exact inner items rfl
  | _ => exact ⟨_, report_violate (.wrongKind .array) (kind_breaks pointer .array _ rfl)⟩

theorem require_text_report : Report pointer value [.own] (requireText pointer value) :=
  check_text_report _ fun _ _ => Report.nil

theorem too_short_report (text : String) (empty : text = "") :
    Report pointer (string text) [.own] (violate pointer .tooShort) :=
  report_violate .tooShort (.minLength text 1 (by simp [empty]))

theorem mismatch_report (pattern : Pattern) (text : String) (misfit : ¬ pattern.accepts text = true) :
    Report pointer (string text) [.own] (violate pointer (.mismatch pattern)) :=
  report_violate (.mismatch pattern) (.pattern text pattern (by rwa [← Pattern.accepts_iff]))

theorem require_nonempty_report : Report pointer value [.own] (requireNonempty pointer value) := by
  apply check_text_report
  rintro text rfl
  split
  · rename_i empty
    exact too_short_report text (String.isEmpty_iff.mp empty)
  · exact Report.nil

theorem require_pattern_report (pattern : Pattern) :
    Report pointer value [.own] (requirePattern pointer pattern value) := by
  apply check_text_report
  rintro text rfl
  split
  · exact Report.nil
  · rename_i misfit
    exact mismatch_report pattern text misfit

theorem check_name_report : Report pointer value [.own] (checkName pointer value) := by
  apply check_text_report
  rintro text rfl
  split
  · rename_i empty
    exact too_short_report text (String.isEmpty_iff.mp empty)
  · split
    · exact Report.nil
    · rename_i misfit
      exact mismatch_report .workflowName text misfit

theorem require_word_report (words : List String) :
    Report pointer value [.own] (requireWord pointer words value) := by
  apply check_text_report
  rintro text rfl
  split
  · exact Report.nil
  · rename_i foreign
    exact report_violate (.notAllowed words) (.enum text words (by simpa using foreign))

theorem check_timeout_report : Report pointer value [.own] (checkTimeout pointer value) := by
  cases value with
  | integer whole =>
      rw [checkTimeout]
      split
      · rename_i small
        exact report_violate .tooSmall (.minimum whole 1 small)
      · exact Report.nil
  | _ => exact report_violate (.wrongKind .integer) (kind_breaks pointer .integer _ rfl)

end

section

theorem report_each {α : Type} {pointer : Pointer} {value : Json} (items : List α)
    (label : α → Label) (report : α → List Violation) (distinct : (items.map label).Nodup)
    (each : ∀ item ∈ items, Report pointer value [label item] (report item)) :
    Report pointer value (items.map label) (items.flatMap report) := by
  induction items with
  | nil => exact Report.nil
  | cons item rest ih =>
      rw [List.map_cons, List.nodup_cons] at distinct
      have first := each item List.mem_cons_self
      have others := ih distinct.2 fun other member => each other (List.mem_cons_of_mem _ member)
      apply first.append others
      intro label same
      cases List.mem_singleton.mp same
      exact distinct.1

variable (pointer : Pointer) (entries : Entries Json)

theorem require_keys_report (names : List String) (distinct : names.Nodup) :
    Report pointer (object entries) (names.map .missing) (requireKeys pointer names entries) := by
  apply report_each
  · exact distinct.map fun _ _ same => Label.missing.inj same
  · intro name _
    split
    · exact Report.nil
    · rename_i absent
      rw [Entries.contains_member] at absent
      exact report_violate (.missing name) (.required entries name absent)

theorem allow_keys_report (names allowed : List String) (rule : AllowedAt pointer allowed)
    (distinct : (Entries.keys entries).Nodup)
    (strict : ∀ key ∈ Entries.keys entries, key ∈ allowed → key ∈ names) :
    Report pointer (object entries) [.additional] (allowKeys pointer names entries) := by
  have foreign : allowKeys pointer names entries =
      ((Entries.keys entries).filter fun key => !names.contains key).map fun key =>
        ⟨pointer, .additional key⟩ := by
    clear distinct strict
    induction entries with
    | nil => rfl
    | cons entry rest ih =>
        simp only [allowKeys, Entries.keys, List.flatMap_cons, List.map_cons, List.filter_cons] at ih ⊢
        rw [ih]
        cases names.contains entry.1 <;> rfl
  rw [foreign]
  constructor
  · apply (distinct.filter _).map
    intro key other same
    simpa using same
  · intro violation member
    obtain ⟨key, kept, rfl⟩ := List.mem_map.mp member
    obtain ⟨there, outside⟩ := List.mem_filter.mp kept
    have outside : key ∉ names := by simpa using outside
    refine ⟨[], object entries, (List.append_nil _).symm, rfl, ?_, List.mem_singleton_self _⟩
    exact .additionalProperties entries key allowed there rule fun inside =>
      outside (strict key there inside)

theorem when_present_report (key : String) (check : Json → List Violation)
    (inner : ∀ part, Entries.find? key entries = some part →
      Reported (pointer.child key) part (check part)) :
    Report pointer (object entries) [.child (.key key)] (whenPresent key entries check) := by
  unfold whenPresent
  split
  · rename_i part found
    exact report_child (.key key) part found (inner part found)
  · exact Report.nil

theorem require_texts_report (names : List String) (distinct : names.Nodup) :
    Report pointer (object entries) (names.map fun name => .child (.key name))
      (requireTexts pointer names entries) := by
  apply report_each
  · apply distinct.map
    intro name other same
    simpa using same
  · intro name _
    exact when_present_report pointer entries name _ fun _ _ => ⟨_, require_text_report⟩

omit entries in
theorem check_items_report (check : Pointer → Json → List Violation) (items : List Json)
    (inner : ∀ place, ∀ item ∈ items,
      Reported (pointer ++ [.index place]) item (check (pointer ++ [.index place]) item)) :
    Report pointer (array items) ((List.range items.length).map fun place => .child (.index place))
      (checkItems check pointer 0 items) := by
  have placed : ∀ (items : List Json) (place : Nat), checkItems check pointer place items =
      (items.zipIdx place).flatMap fun item => check (pointer ++ [.index item.2]) item.1 := by
    intro items
    induction items with
    | nil => exact fun _ => rfl
    | cons item rest ih =>
        intro place
        rw [checkItems, ih, List.zipIdx_cons, List.flatMap_cons]
  have places : (items.zipIdx.map fun item => Label.child (.index item.2)) =
      (List.range items.length).map fun place => .child (.index place) := by
    rw [List.range_eq_range', ← List.zipIdx_map_snd, List.map_map]
    rfl
  rw [placed, ← places]
  apply report_each
  · rw [places]
    apply List.nodup_range.map
    intro place other same
    simpa using same
  · intro item member
    have there := List.mem_zipIdx_iff_getElem?.mp member
    exact report_child (.index item.2) item.1 there
      (inner item.2 item.1 (List.mem_of_getElem? there))

theorem check_values_report (check : Pointer → Json → List Violation)
    (distinct : (Entries.keys entries).Nodup)
    (inner : ∀ entry ∈ entries,
      Reported (pointer.child entry.1) entry.2 (check (pointer.child entry.1) entry.2)) :
    Reported pointer (object entries) (checkValues check pointer entries) := by
  refine ⟨entries.map fun entry => .child (.key entry.1), ?_⟩
  apply report_each
  · have labels := distinct.map (f := fun key => Label.child (.key key)) fun key other same => by
      simpa using same
    rwa [Entries.keys, List.map_map] at labels
  · intro entry member
    exact report_child (.key entry.1) entry.2 (Entries.find_distinct entries distinct _ _ member)
      (inner entry member)

omit entries in
theorem check_some_report (check : Pointer → Json → List Violation) (value : Json)
    (inner : ∀ items, value = array items → ∀ place, ∀ item ∈ items,
      Reported (pointer ++ [.index place]) item (check (pointer ++ [.index place]) item)) :
    Reported pointer value (checkSome check pointer value) := by
  apply check_array_report
  rintro items rfl
  have each := check_items_report pointer check items (inner items rfl)
  have few : Report pointer (array items) [.own]
      (if items.isEmpty then violate pointer .tooFew else []) := by
    split
    · rename_i empty
      exact report_violate .tooFew (.minItems items 1 (by simp [List.isEmpty_iff.mp empty]))
    · exact Report.nil
  exact ⟨_, few.append each (by simp)⟩

end

section

variable {pointer : Pointer} {entries : Entries Json}

theorem has_none (names : List String) (none : Condition.hasAny names entries = false) :
    ∀ key ∈ Entries.keys entries, key ∉ names := by
  simp only [Condition.hasAny, List.any_eq_false, Entries.contains_member] at none
  exact fun key there named => none key named there

theorem check_comparison_report
    (rule : AllowedAt pointer ["field", "op", "value", "conditions", "match"])
    (distinct : (Entries.keys entries).Nodup)
    (single : Condition.hasAny Condition.combinationKeys entries = false) :
    ∃ labels, Report pointer (object entries) labels (checkComparison pointer entries) ∧
      Label.own ∉ labels := by
  have strict : ∀ key ∈ Entries.keys entries,
      key ∈ Condition.comparisonKeys ++ Condition.combinationKeys → key ∈ Condition.comparisonKeys :=
    fun key there allowed => (List.mem_append.mp allowed).resolve_right (has_none _ single key there)
  have keys := require_keys_report pointer entries Condition.comparisonKeys
    (by decide)
  have additional := allow_keys_report pointer entries Condition.comparisonKeys _ rule distinct strict
  have field := when_present_report pointer entries "field"
    (requirePattern (pointer.child "field") .conditionField) fun _ _ => ⟨_, require_pattern_report _⟩
  have op := when_present_report pointer entries "op"
    (requireWord (pointer.child "op") Comparison.words) fun _ _ => ⟨_, require_word_report _⟩
  have value := when_present_report pointer entries "value"
    (requireKind (pointer.child "value") .scalar) fun _ _ => ⟨_, require_kind_report _⟩
  have whole := (((keys.append additional (by decide)).append field (by decide)).append op
    (by decide)).append value (by decide)
  exact ⟨_, whole, by decide⟩

theorem check_combination_report
    (rule : AllowedAt pointer ["field", "op", "value", "conditions", "match"])
    (distinct : (Entries.keys entries).Nodup)
    (grouped : Condition.hasAny Condition.comparisonKeys entries = false)
    (inner : ∀ parts, Entries.find? "conditions" entries = some parts →
      Reported (pointer.child "conditions") parts
        (checkSome checkCondition (pointer.child "conditions") parts)) :
    ∃ labels, Report pointer (object entries) labels (checkCombination pointer entries) ∧
      Label.own ∉ labels := by
  have strict : ∀ key ∈ Entries.keys entries,
      key ∈ Condition.comparisonKeys ++ Condition.combinationKeys → key ∈ Condition.combinationKeys :=
    fun key there allowed => (List.mem_append.mp allowed).resolve_left (has_none _ grouped key there)
  have keys := require_keys_report pointer entries Condition.combinationKeys
    (by decide)
  have additional := allow_keys_report pointer entries Condition.combinationKeys _ rule distinct strict
  have parts := when_present_report pointer entries "conditions" _ inner
  have mode := when_present_report pointer entries "match"
    (requireWord (pointer.child "match") (Combination.named.map Prod.fst)) fun _ _ =>
      ⟨_, require_word_report _⟩
  have whole := ((keys.append additional (by decide)).append parts (by decide)).append mode
    (by decide)
  rw [checkCombination, check_parts_present]
  exact ⟨_, whole, by decide⟩

-- The reports of the two shapes say different things, and at most one of them is kept.
theorem join_shapes_report (single grouped : List Violation)
    (exclusive : single = [] → grouped ≠ [])
    (neither : single ≠ [] → grouped ≠ [] → ¬ IsCondition (object entries))
    (singleReport : Condition.hasAny Condition.combinationKeys entries = false →
      ∃ labels, Report pointer (object entries) labels single ∧ Label.own ∉ labels)
    (groupedReport : Condition.hasAny Condition.comparisonKeys entries = false →
      ∃ labels, Report pointer (object entries) labels grouped ∧ Label.own ∉ labels) :
    Reported pointer (object entries) (joinShapes pointer entries single grouped) := by
  unfold joinShapes
  split
  · exact absurd rfl (exclusive rfl)
  · exact ⟨[], Report.nil⟩
  · exact ⟨[], Report.nil⟩
  · have shape : Report pointer (object entries) [.own] (violate pointer .noShape) :=
      report_violate .noShape (.oneOf (object entries) (neither (by simp) (by simp)))
    have both : ∀ violations labels, Report pointer (object entries) labels violations →
        Label.own ∉ labels →
          Reported pointer (object entries) (violations ++ violate pointer .noShape) := by
      intro violations labels report silent
      refine ⟨_, report.append shape ?_⟩
      intro label member own
      cases List.mem_singleton.mp own
      exact silent member
    split
    · rename_i other
      obtain ⟨labels, report, silent⟩ := singleReport other
      exact both _ labels report silent
    · rename_i other _
      obtain ⟨labels, report, silent⟩ := groupedReport other
      exact both _ labels report silent
    · exact ⟨_, shape⟩

end

theorem check_condition_report (step : Nat) (parts : List Nat) (condition : Json)
    (proper : condition.wellFormed = true) :
    Reported (conditionPointer step parts) condition
      (checkCondition (conditionPointer step parts) condition) := by
  induction condition using condition_induction generalizing parts with
  | step condition ih =>
      cases condition with
      | object entries =>
          have rule := AllowedAt.condition step parts
          have distinct := ((object_well_formed_iff entries).mp proper).1
          have conforms := check_condition_iff (conditionPointer step parts) (object entries)
          rw [check_condition_object] at conforms ⊢
          apply join_shapes_report
          · exact fun fits => shapes_exclusive _ entries fits
          · intro single grouped condition
            rw [← conforms, join_shapes_iff] at condition
            tauto
          · exact check_comparison_report rule distinct
          · intro grouped
            apply check_combination_report rule distinct grouped
            intro value found
            have inside := found_well_formed entries proper "conditions" value found
            apply check_some_report
            rintro items rfl place item member
            rw [condition_pointer_part]
            exact ih entries items rfl found item member (parts ++ [place])
              ((array_well_formed_iff items).mp inside item member)
      | _ => exact ⟨_, report_violate .noShape (.oneOf _ nofun)⟩

theorem action_words (text : String) (word : text ∈ Action.names ++ [Action.rawCodeAlias]) :
    (Action.ofName? text).isSome = true := by
  have spelled : ∃ action, text ∈ spellings action := by
    cases List.mem_append.mp word with
    | inl name =>
        obtain ⟨action, _, rfl⟩ := List.mem_map.mp name
        exact ⟨action, by cases action <;> decide⟩
    | inr spare =>
        cases List.mem_singleton.mp spare
        exact ⟨.rawCode, by decide⟩
  obtain ⟨action, spelled⟩ := spelled
  rw [(action_name_iff text action).mpr spelled]
  rfl

theorem check_action_report (pointer : Pointer) (value : Json) :
    Report pointer value [.own] (checkAction pointer value) := by
  apply check_text_report
  rintro text rfl
  split
  · exact Report.nil
  · rename_i unknown
    exact report_violate (.notAllowed _) (.enum text _ fun word => unknown (action_words text word))

theorem demands_report (pointer : Pointer) (entries : Entries Json) :
    Report pointer (object entries) (["url", "selector", "value", "key", "file", "code"].map .missing)
      (match actionOf? entries with
        | some action => requireKeys pointer action.requiredFields entries
        | none => []) := by
  cases actionOf? entries with
  | none => exact Report.nil
  | some action =>
      apply (require_keys_report pointer entries action.requiredFields (by cases action <;> decide)).weaken
      cases action <;> decide

theorem check_step_report (place : Nat) (value : Json) (proper : value.wellFormed = true) :
    Reported [.key "steps", .index place] value (checkStep [.key "steps", .index place] value) := by
  apply check_object_report
  rintro entries rfl
  let pointer : Pointer := [.key "steps", .index place]
  have distinct := ((object_well_formed_iff entries).mp proper).1
  have keys := require_keys_report pointer entries ["name", "action"]
    (by decide)
  have additional := allow_keys_report pointer entries AuthoredStep.fieldNames _ (.step place)
    distinct fun _ _ named => named
  have name := when_present_report pointer entries "name"
    (requireNonempty (pointer.child "name")) fun _ _ => ⟨_, require_nonempty_report⟩
  have action := when_present_report pointer entries "action"
    (checkAction (pointer.child "action")) fun _ _ => ⟨_, check_action_report _ _⟩
  have demands := demands_report pointer entries
  have texts := require_texts_report pointer entries stepTextKeys (by decide)
  have scalar := when_present_report pointer entries "value"
    (requireKind (pointer.child "value") .scalar) fun _ _ => ⟨_, require_kind_report _⟩
  have timeout := when_present_report pointer entries "timeout"
    (checkTimeout (pointer.child "timeout")) fun _ _ => ⟨_, check_timeout_report⟩
  have output := when_present_report pointer entries "output"
    (requirePattern (pointer.child "output") .outputKey) fun _ _ => ⟨_, require_pattern_report _⟩
  have condition := when_present_report pointer entries "when"
    (checkCondition (pointer.child "when")) fun part found =>
      check_condition_report place [] part (found_well_formed entries proper "when" part found)
  exact ⟨_, (((((((((keys.append additional (by decide)).append name (by decide)).append action
    (by decide)).append demands (by decide)).append texts (by decide)).append scalar
    (by decide)).append timeout (by decide)).append output (by decide)).append condition (by decide))⟩

theorem check_steps_report (value : Json) (proper : value.wellFormed = true) :
    Reported [.key "steps"] value (checkSteps [.key "steps"] value) := by
  apply check_some_report
  rintro items rfl place item member
  exact check_step_report place item ((array_well_formed_iff items).mp proper item member)

theorem check_parameter_report (name : String) (value : Json) (proper : value.wellFormed = true) :
    Reported [.key "input", .key name] value (checkParameter [.key "input", .key name] value) := by
  apply check_object_report
  rintro entries rfl
  let pointer : Pointer := [.key "input", .key name]
  have distinct := ((object_well_formed_iff entries).mp proper).1
  have additional := allow_keys_report pointer entries Parameter.fieldNames _ (.parameter name)
    distinct fun _ _ named => named
  have texts := require_texts_report pointer entries ["type", "description"] (by decide)
  have flag := when_present_report pointer entries "required"
    (requireKind (pointer.child "required") .truth) fun _ _ => ⟨_, require_kind_report _⟩
  exact ⟨_, (additional.append texts (by decide)).append flag (by decide)⟩

theorem check_extraction_report (place : Nat) (value : Json) (proper : value.wellFormed = true) :
    Reported [.key "extract", .index place] value
      (checkExtraction [.key "extract", .index place] value) := by
  apply check_object_report
  rintro entries rfl
  let pointer : Pointer := [.key "extract", .index place]
  have distinct := ((object_well_formed_iff entries).mp proper).1
  have keys := require_keys_report pointer entries ["field", "prompt"] (by decide)
  have additional := allow_keys_report pointer entries ["field", "prompt", "type"] _
    (.extraction place) distinct fun _ _ named => named
  have texts := require_texts_report pointer entries ["field", "prompt", "type"] (by decide)
  exact ⟨_, (keys.append additional (by decide)).append texts (by decide)⟩

theorem check_output_report (name : String) (value : Json) (proper : value.wellFormed = true) :
    Reported [.key "output", .key name] value (checkOutput [.key "output", .key name] value) := by
  apply check_object_report
  rintro entries rfl
  let pointer : Pointer := [.key "output", .key name]
  have distinct := ((object_well_formed_iff entries).mp proper).1
  have additional := allow_keys_report pointer entries ["description"] _ (.output name) distinct
    fun _ _ named => named
  have texts := require_texts_report pointer entries ["description"] (by decide)
  exact ⟨_, additional.append texts (by decide)⟩

theorem check_table_report (pointer : Pointer) (check : Pointer → Json → List Violation)
    (inner : ∀ name value, value.wellFormed = true →
      Reported (pointer.child name) value (check (pointer.child name) value))
    (value : Json) (proper : value.wellFormed = true) :
    Reported pointer value (checkObject pointer (checkValues check pointer) value) := by
  apply check_object_report
  rintro entries rfl
  obtain ⟨distinct, each⟩ := (object_well_formed_iff entries).mp proper
  apply check_values_report pointer entries check distinct
  intro entry member
  exact inner entry.1 entry.2 (each entry member)

theorem check_extract_report (value : Json) (proper : value.wellFormed = true) :
    Reported [.key "extract"] value (checkExtract [.key "extract"] value) := by
  apply check_array_report
  rintro items rfl
  refine ⟨_, check_items_report _ checkExtraction items ?_⟩
  intro place item member
  exact check_extraction_report place item ((array_well_formed_iff items).mp proper item member)

theorem check_report (document : Json) (proper : document.wellFormed = true) :
    Reported [] document (check document) := by
  apply check_object_report
  rintro entries rfl
  have inner := found_well_formed entries proper
  have keys := require_keys_report [] entries ["name", "steps"] (by decide)
  have additional := allow_keys_report [] entries Workflow.fieldNames _ .workflow
    ((object_well_formed_iff entries).mp proper).1 fun _ _ named => named
  have name := when_present_report [] entries "name" (checkName [.key "name"]) fun _ _ =>
    ⟨_, check_name_report⟩
  have description := when_present_report [] entries "description" (requireText [.key "description"])
    fun _ _ => ⟨_, require_text_report⟩
  have input := when_present_report [] entries "input" (checkInput [.key "input"]) fun part found =>
    check_table_report [.key "input"] checkParameter check_parameter_report part (inner "input" part found)
  have constants := when_present_report [] entries "constants"
    (requireKind [.key "constants"] .object) fun _ _ => ⟨_, require_kind_report _⟩
  have extract := when_present_report [] entries "extract" (checkExtract [.key "extract"])
    fun part found => check_extract_report part (inner "extract" part found)
  have output := when_present_report [] entries "output" (checkOutputs [.key "output"])
    fun part found =>
      check_table_report [.key "output"] checkOutput check_output_report part (inner "output" part found)
  have steps := when_present_report [] entries "steps" (checkSteps [.key "steps"]) fun part found =>
    check_steps_report part (inner "steps" part found)
  exact ⟨_, (((((((keys.append additional (by decide)).append name (by decide)).append description
    (by decide)).append input (by decide)).append constants (by decide)).append extract
    (by decide)).append output (by decide)).append steps (by decide)⟩

theorem defect_told (left right : Defect) (keyword : left.keyword = right.keyword)
    (params : left.params = right.params) : left = right := by
  have kinds : ∀ kind other : Kind, kind.name = other.name → kind = other := by
    intro kind other
    cases kind <;> cases other <;> decide
  have patterns : ∀ pattern other : Pattern, pattern.source = other.source → pattern = other := by
    intro pattern other
    cases pattern <;> cases other <;> decide
  have words : ∀ words others : List String, strings words = strings others → words = others := by
    intro words others same
    exact (List.map_injective_iff.mpr fun _ _ => string.inj) (array.inj same)
  cases left <;> cases right <;> simp_all [Defect.keyword, Defect.params]
  case wrongKind.wrongKind kind other => exact kinds kind other params
  case mismatch.mismatch pattern other => exact patterns pattern other params
  case notAllowed.notAllowed allowed other => exact words allowed other params

-- The root of a document is not named by a pointer but by a word.
def Located (path : String) (document value : Json) : Prop :=
  (path = "(root)" ∧ value = document) ∨ Json.resolve? path document = some value

theorem violations_true_once (document : Json) (proper : document.wellFormed = true) :
    (∀ violation ∈ check document, ∃ value,
      Located (Pointer.text violation.pointer) document value ∧
        Breaks violation.pointer value violation.defect.keyword violation.defect.params) ∧
    ((check document).map fun violation =>
      (Pointer.text violation.pointer, violation.defect.keyword, violation.defect.params)).Nodup := by
  obtain ⟨labels, report⟩ := check_report document proper
  have leads : ∀ violation ∈ check document, ∃ value,
      violation.pointer.follow? document = some value ∧
        Breaks violation.pointer value violation.defect.keyword violation.defect.params := by
    intro violation member
    obtain ⟨rest, value, placed, there, breaks, _⟩ := report.located violation member
    exact ⟨value, placed ▸ there, breaks⟩
  constructor
  · intro violation member
    obtain ⟨value, there, breaks⟩ := leads violation member
    refine ⟨value, ?_, breaks⟩
    cases place : violation.pointer with
    | nil =>
        rw [place] at there
        exact Or.inl ⟨rfl, (Option.some.inj there).symm⟩
    | cons token rest =>
        rw [place] at there
        exact Or.inr (Pointer.text_resolves token rest document value there)
  · apply List.Nodup.map_on _ report.once
    intro left inLeft right inRight same
    obtain ⟨path, keyword, params⟩ := by simpa using same
    obtain ⟨_, leftThere, _⟩ := leads left inLeft
    obtain ⟨_, rightThere, _⟩ := leads right inRight
    have pointers := Pointer.text_injective _ _ document _ _ leftThere rightThere path
    have defects := defect_told left.defect right.defect keyword params
    cases left
    cases right
    exact Violation.mk.injEq .. ▸ ⟨pointers, defects⟩

def draft : Json :=
  object [("name", string "draft"),
    ("input", object [("a/b~", object [("required", string "yes")])]),
    ("steps", array [object [("name", string "Wait"), ("action", string "wait"), ("selector", string "p"),
      ("when", object [("conditions", array []), ("match", string "all")])]])]

theorem violations_true_once_draft :
    draft.wellFormed = true ∧
    (∃ value, Located "/input/a~1b~0/required" draft value ∧
      Breaks [.key "input", .key "a/b~", .key "required"] value "type"
        (object [("type", string "boolean")])) ∧
    (∃ value, Located "/steps/0/when/conditions" draft value ∧
      Breaks [.key "steps", .index 0, .key "when", .key "conditions"] value "minItems"
        (object [("limit", integer 1)])) := by
  have proper : draft.wellFormed = true := by decide
  have found : check draft =
      [⟨[.key "input", .key "a/b~", .key "required"], .wrongKind .truth⟩,
        ⟨[.key "steps", .index 0, .key "when", .key "conditions"], .tooFew⟩,
        ⟨[.key "steps", .index 0, .key "when"], .noShape⟩] := by
    decide
  obtain ⟨sound, _⟩ := violations_true_once draft proper
  rw [found] at sound
  exact ⟨proper, sound _ List.mem_cons_self, sound _ (List.mem_cons_of_mem _ List.mem_cons_self)⟩

end Authoring

end BrowserFlow
