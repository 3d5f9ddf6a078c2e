import BrowserFlow.Proofs.Json.Decoding
import BrowserFlow.Workflow.Definition
/-! Decoding workflow documents. A well-formed value that follows the rules of the grammar decodes, and to
nothing else than its entries say. -/
set_option autoImplicit false

namespace BrowserFlow

open Json Authoring

def Parameter.ofEntries (entries : Entries Json) : Parameter where
  type := Condition.text? "type" entries
  required := ((Entries.find? "required" entries).map isTrue).getD false
  default := valueAt? "default" entries
  description := Condition.text? "description" entries
  sample := valueAt? "example" entries

def Extraction.ofEntries (entries : Entries Json) : Extraction where
  field := textAt "field" entries
  prompt := textAt "prompt" entries
  type := Condition.text? "type" entries

def Output.ofEntries (entries : Entries Json) : Output where
  description := Condition.text? "description" entries

def AuthoredStep.ofEntries (entries : Entries Json) : AuthoredStep where
  name := textAt "name" entries
  action := textAt "action" entries
  selector := Condition.text? "selector" entries
  url := Condition.text? "url" entries
  value := valueAt? "value" entries
  key := Condition.text? "key" entries
  file := Condition.text? "file" entries
  timeout := (Entries.find? "timeout" entries).bind natural?
  code := Condition.text? "code" entries
  hint := Condition.text? "hint" entries
  guard := valueAt? "when" entries
  output := Condition.text? "output" entries
  description := Condition.text? "description" entries

def tableOf {α : Type} (make : Entries Json → α) (value : Json) : Entries α :=
  (entriesOf value).mapValues fun inner => make (entriesOf inner)

def listOf {α : Type} (make : Entries Json → α) (value : Json) : List α :=
  (itemsOf value).map fun inner => make (entriesOf inner)

def Workflow.ofEntries (entries : Entries Json) : Workflow where
  name := textAt "name" entries
  description := Condition.text? "description" entries
  inputs := ((Entries.find? "input" entries).map (tableOf Parameter.ofEntries)).getD []
  constants := ((Entries.find? "constants" entries).map entriesOf).getD []
  extractions := ((Entries.find? "extract" entries).map (listOf Extraction.ofEntries)).getD []
  outputs := ((Entries.find? "output" entries).map (tableOf Output.ofEntries)).getD []
  steps := ((Entries.find? "steps" entries).map (listOf AuthoredStep.ofEntries)).getD []

section Records

variable (entries : Entries Json) (proper : (object entries).wellFormed = true)

include proper

theorem distinct_keys : (Entries.keys entries).Nodup :=
  ((object_well_formed_iff entries).mp proper).1

theorem decode_parameter (rules : ParameterRules entries) :
    Parameter.decode (.given (object entries)) = .ok (.ofEntries entries) := by
  refine record_given _ _ _ entries (distinct_keys entries proper) _ ?_
  exact (optional_text entries "type" rules.type).map Parameter.mk
    |>.and (defaulted_flag entries "required" rules.required)
    |>.and (optional_any entries "default" proper)
    |>.and (optional_text entries "description" rules.description)
    |>.and (optional_any entries "example" proper)

theorem decode_extraction (rules : ExtractionRules entries) :
    Extraction.decode (.given (object entries)) = .ok (.ofEntries entries) := by
  refine record_given _ _ _ entries (distinct_keys entries proper) _ ?_
  exact (required_text entries "field" rules.field).map Extraction.mk
    |>.and (required_text entries "prompt" rules.prompt)
    |>.and (optional_text entries "type" rules.type)

theorem decode_output (rules : OutputRules entries) :
    Output.decode (.given (object entries)) = .ok (.ofEntries entries) := by
  refine record_given _ _ _ entries (distinct_keys entries proper) _ ?_
  exact (optional_text entries "description" rules.description).map Output.mk

theorem decode_step (rules : StepRules entries) :
    AuthoredStep.decode (.given (object entries)) = .ok (.ofEntries entries) := by
  obtain ⟨_, spelled, _⟩ := rules.action
  have name := rules.name.weaken text_of_nonempty
  have action := spelled.weaken text_of_word
  have output := rules.output.weaken text_of_fitting
  have texts : ∀ key ∈ ["selector", "url", "key", "file", "code", "hint", "description"],
      (optional key decodeText).Make (givenSlots entries) (Condition.text? key entries) :=
    fun key member => optional_text entries key (rules.texts key member)
  refine record_given _ _ _ entries (distinct_keys entries proper) _ ?_
  exact (required_text entries "name" name).map AuthoredStep.mk
    |>.and (required_text entries "action" action)
    |>.and (texts "selector" (by simp))
    |>.and (texts "url" (by simp))
    |>.and (optional_any entries "value" proper)
    |>.and (texts "key" (by simp))
    |>.and (texts "file" (by simp))
    |>.and (optional_word entries "timeout" proper rules.timeout)
    |>.and (texts "code" (by simp))
    |>.and (texts "hint" (by simp))
    |>.and (optional_any entries "when" proper)
    |>.and (optional_text entries "output" output)
    |>.and (texts "description" (by simp))

end Records

theorem decode_records {α : Type} (decode : Decoder α) (make : Entries Json → α)
    (rules : Entries Json → Prop)
    (decodes : ∀ entries, (object entries).wellFormed = true → rules entries →
      decode (.given (object entries)) = .ok (make entries))
    (value : Json) (proper : value.wellFormed = true) (record : IsRecord rules value) :
    decode (.given value) = .ok (make (entriesOf value)) := by
  obtain ⟨entries, rfl, follows⟩ := record
  exact decodes entries proper follows

theorem decode_record_table {α : Type} (decode : Decoder α) (make : Entries Json → α)
    (rules : Entries Json → Prop)
    (decodes : ∀ entries, (object entries).wellFormed = true → rules entries →
      decode (.given (object entries)) = .ok (make entries))
    (value : Json) (proper : value.wellFormed = true) (table : IsTable (IsRecord rules) value) :
    decodeTable decode (.given value) = .ok (tableOf make value) := by
  obtain ⟨entries, rfl, follow⟩ := table
  have inner := ((object_well_formed_iff entries).mp proper).2
  exact decode_table_given decode (fun value => make (entriesOf value)) entries
    (distinct_keys entries proper)
    fun entry member => decode_records decode make rules decodes entry.2 (inner entry member)
      (follow entry member)

theorem decode_record_list {α : Type} (decode : Decoder α) (make : Entries Json → α)
    (rules : Entries Json → Prop)
    (decodes : ∀ entries, (object entries).wellFormed = true → rules entries →
      decode (.given (object entries)) = .ok (make entries))
    (value : Json) (proper : value.wellFormed = true) (list : IsList (IsRecord rules) value) :
    decodeList decode (.given value) = .ok (listOf make value) := by
  obtain ⟨items, rfl, follow⟩ := list
  have inner := (array_well_formed_iff items).mp proper
  exact decode_list_given decode (fun value => make (entriesOf value)) items
    fun item member => decode_records decode make rules decodes item (inner item member)
      (follow item member)

theorem decode_workflow (entries : Entries Json) (proper : (object entries).wellFormed = true)
    (rules : WorkflowRules entries) :
    Workflow.decode (.given (object entries)) = .ok (.ofEntries entries) := by
  have name := rules.name.weaken text_of_fitting
  have inside := found_well_formed entries proper
  refine record_given _ _ _ entries (distinct_keys entries proper) _ ?_
  refine (required_text entries "name" name).map Workflow.mk
    |>.and (optional_text entries "description" rules.description)
    |>.and (defaulted_field entries "input" [] _ _ fun value found => ?_)
    |>.and (defaulted_field entries "constants" [] _ _ fun value found => ?_)
    |>.and (defaulted_field entries "extract" [] _ _ fun value found => ?_)
    |>.and (defaulted_field entries "output" [] _ _ fun value found => ?_)
    |>.and (defaulted_field entries "steps" [] _ _ fun value found => ?_)
  · exact decode_record_table _ _ _ decode_parameter value (inside "input" value found)
      (rules.input value found)
  · obtain ⟨constants, rfl, _⟩ := rules.constants value found
    have proper := inside "constants" (object constants) found
    have each : ∀ entry ∈ constants, decodeAny (.given entry.2) = .ok entry.2 := by
      intro entry member
      have merged := merged_well_formed entry.2 (((object_well_formed_iff constants).mp proper).2
        entry member)
      rw [decodeAny, Source.contents, Except.map, merged]
    have decoded := decode_table_given decodeAny id constants (distinct_keys constants proper) each
    simpa [Entries.mapValues, entries_of_object] using decoded
  · exact decode_record_list _ _ _ decode_extraction value (inside "extract" value found)
      (rules.extract value found)
  · exact decode_record_table _ _ _ decode_output value (inside "output" value found)
      (rules.output value found)
  · obtain ⟨_, there, steps, rfl, _, follow⟩ := rules.steps
    rw [there] at found
    cases found
    exact decode_record_list _ _ _ decode_step (array steps) (inside "steps" _ there)
      ⟨steps, rfl, follow⟩

end BrowserFlow
