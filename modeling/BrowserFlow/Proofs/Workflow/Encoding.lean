import BrowserFlow.Proofs.Authoring.Restated
import BrowserFlow.Proofs.Json.Sources
import BrowserFlow.Proofs.Program.Meaning
/-! Encoding workflows. What was decoded from a valid document encodes to a valid document again, which
decodes to the same workflow and compiles to the same program. -/
set_option autoImplicit false

namespace BrowserFlow

open Json Authoring

section

variable {entries others : Entries Json} (same : Reordered entries others)

include same

theorem parameter_reordered : Parameter.ofEntries entries = Parameter.ofEntries others := by
  simp only [Parameter.ofEntries, Condition.text?, valueAt?, same _]

theorem extraction_reordered : Extraction.ofEntries entries = Extraction.ofEntries others := by
  simp only [Extraction.ofEntries, textAt, Condition.text?, same _]

theorem output_reordered : Output.ofEntries entries = Output.ofEntries others := by
  simp only [Output.ofEntries, Condition.text?, same _]

theorem step_reordered : AuthoredStep.ofEntries entries = AuthoredStep.ofEntries others := by
  simp only [AuthoredStep.ofEntries, textAt, Condition.text?, valueAt?, same _]

end

theorem text_restored (key : String) (entries : Entries Json) (may : May key IsText entries) :
    (Condition.text? key entries).map string = Entries.find? key entries := by
  unfold Condition.text?
  cases found : Entries.find? key entries with
  | none => rfl
  | some value =>
      obtain ⟨text, rfl⟩ := may value found
      rfl

theorem text_at_restored (key : String) (entries : Entries Json) (must : Must key IsText entries) :
    some (string (textAt key entries)) = Entries.find? key entries := by
  obtain ⟨_, found, text, rfl⟩ := must
  rw [text_at_found key text entries found, found]

theorem milliseconds_restored (key : String) (entries : Entries Json)
    (may : May key IsMilliseconds entries) :
    ((Entries.find? key entries).bind natural?).map natural = Entries.find? key entries := by
  cases found : Entries.find? key entries with
  | none => rfl
  | some value =>
      obtain ⟨whole, rfl, positive⟩ := may value found
      have kept : (whole.toNat : Int) = whole := by omega
      simp only [Option.bind_some, natural?, Option.map_some, natural, kept]

theorem value_restored (key : String) (entries others : Entries Json)
    (found : Entries.find? key others = valueAt? key entries) :
    valueAt? key others = valueAt? key entries := by
  unfold valueAt? at found ⊢
  rw [found]
  cases Entries.find? key entries with
  | none => rfl
  | some value => cases empty : value.isNull <;> simp [empty]

-- A record that was made from entries that follow the rules encodes to entries that follow the rules
-- again, from which the same record is made.
def Restores {α : Type} (rules : Entries Json → Prop) (make : Entries Json → α) (encode : α → Json) :
    Prop :=
  ∀ entries, (object entries).wellFormed = true → rules entries →
    ∃ others, encode (make entries) = object others ∧ (object others).wellFormed = true ∧
      rules others ∧ make others = make entries

theorem reordered_of_named (names : List String) (entries others : Entries Json) (distinct : names.Nodup)
    (proper : (object entries).wellFormed = true) (only : OnlyKeys names entries)
    (named : Named names others)
    (each : ∀ key ∈ names, Entries.find? key entries = Entries.find? key others) :
    Reordered entries others ∧ (object others).wellFormed = true := by
  have same := Reordered.of_listed names only (fun key inside => named.subset inside) each
  exact ⟨same, same.well_formed (named.distinct distinct) proper⟩

theorem named_well_formed (names : List String) (entries : Entries Json) (distinct : names.Nodup)
    (named : Named names entries)
    (inside : ∀ key ∈ names, ∀ value, Entries.find? key entries = some value → value.wellFormed = true) :
    (object entries).wellFormed = true := by
  have keys := named.distinct distinct
  refine (object_well_formed_iff entries).mpr ⟨keys, fun entry member => ?_⟩
  exact inside entry.1 (named.subset (List.mem_map_of_mem (f := Prod.fst) member)) entry.2
    (Entries.find_distinct entries keys entry.1 entry.2 member)

theorem step_named (step : AuthoredStep) : Named AuthoredStep.fieldNames (entriesOf step.encode) :=
  (keys_named [("name", string step.name), ("action", string step.action)])
    |>.and (present_named "selector" _) |>.and (present_named "url" _)
    |>.and (present_named "value" _) |>.and (present_named "key" _) |>.and (present_named "file" _)
    |>.and (present_named "timeout" _) |>.and (present_named "code" _) |>.and (present_named "hint" _)
    |>.and (present_named "when" _) |>.and (present_named "output" _)
    |>.and (present_named "description" _)

theorem step_restored : Restores StepRules AuthoredStep.ofEntries AuthoredStep.encode := by
  intro entries proper rules
  obtain ⟨_, spelled, _⟩ := rules.action
  have name := text_at_restored "name" entries (rules.name.weaken text_of_nonempty)
  have action := text_at_restored "action" entries (spelled.weaken text_of_word)
  have text := fun key listed => text_restored key entries (rules.texts key listed)
  have output := text_restored "output" entries (rules.output.weaken text_of_fitting)
  have value := value_at_some "value" entries IsScalar scalar_somewhat rules.value
  have timeout := milliseconds_restored "timeout" entries rules.timeout
  have guard := value_at_some "when" entries IsCondition condition_somewhat rules.condition
  obtain ⟨same, properly⟩ := reordered_of_named AuthoredStep.fieldNames entries
    (entriesOf (AuthoredStep.ofEntries entries).encode) (by decide) proper rules.keys (step_named _) (by
      simp only [AuthoredStep.fieldNames, List.forall_mem_cons, List.not_mem_nil, IsEmpty.forall_iff,
        implies_true, and_true, AuthoredStep.encode, entries_of_object,
        Entries.find_append, Entries.find_cons, Entries.find_nil, find_present]
      simp [AuthoredStep.ofEntries, name, action, text, output, value, timeout, guard])
  exact ⟨_, rfl, properly, step_rules_reordered same rules, (step_reordered same).symm⟩

theorem extraction_restored :
    Restores ExtractionRules Extraction.ofEntries Extraction.encode := by
  intro entries proper rules
  have field := text_at_restored "field" entries rules.field
  have prompt := text_at_restored "prompt" entries rules.prompt
  have type := text_restored "type" entries rules.type
  obtain ⟨same, properly⟩ := reordered_of_named ["field", "prompt", "type"] entries
    (entriesOf (Extraction.ofEntries entries).encode) (by decide) proper rules.keys
    ((keys_named [("field", _), ("prompt", _)]).and (present_named "type" _)) (by
      simp [Extraction.encode, Extraction.ofEntries, field, prompt, type])
  exact ⟨_, rfl, properly, extraction_rules_reordered same rules, (extraction_reordered same).symm⟩

theorem output_restored : Restores OutputRules Output.ofEntries Output.encode := by
  intro entries proper rules
  have description := text_restored "description" entries rules.description
  obtain ⟨same, properly⟩ := reordered_of_named ["description"] entries
    (entriesOf (Output.ofEntries entries).encode) (by decide) proper rules.keys
    (present_named "description" _) (by
      simp [Output.encode, Output.ofEntries, description])
  exact ⟨_, rfl, properly, output_rules_reordered same rules, (output_reordered same).symm⟩

theorem parameter_named (parameter : Parameter) :
    Named Parameter.fieldNames (entriesOf parameter.encode) :=
  (present_named "type" _).and (keys_named [("required", bool parameter.required)])
    |>.and (present_named "default" _) |>.and (present_named "description" _)
    |>.and (present_named "example" _)

theorem value_at_found (key : String) (entries : Entries Json) (value : Json)
    (found : valueAt? key entries = some value) : Entries.find? key entries = some value := by
  unfold valueAt? at found
  obtain ⟨other, there, kept⟩ := Option.bind_eq_some_iff.mp found
  split at kept
  · cases kept
  · rw [there, kept]

-- What is required is said in any case, and what is null is left out.
theorem parameter_restored : Restores ParameterRules Parameter.ofEntries Parameter.encode := by
  intro entries proper rules
  obtain ⟨others, written, named⟩ : ∃ others, (Parameter.ofEntries entries).encode = object others ∧
      Named Parameter.fieldNames others := ⟨_, rfl, parameter_named _⟩
  have there := (object.inj written).symm
  have type : Entries.find? "type" others = Entries.find? "type" entries := by
    simp [there, Parameter.ofEntries, text_restored "type" entries rules.type]
  have required : Entries.find? "required" others = some (bool (Parameter.ofEntries entries).required) := by
    simp [there]
  have default : Entries.find? "default" others = valueAt? "default" entries := by
    simp [there, Parameter.ofEntries]
  have description : Entries.find? "description" others = Entries.find? "description" entries := by
    simp [there, Parameter.ofEntries, text_restored "description" entries rules.description]
  have sample : Entries.find? "example" others = valueAt? "example" entries := by
    simp [there, Parameter.ofEntries]
  have inside := found_well_formed entries proper
  refine ⟨others, written, named_well_formed _ others (by decide) named ?_, ?_, ?_⟩
  · simp only [Parameter.fieldNames, List.forall_mem_cons, List.not_mem_nil, IsEmpty.forall_iff,
      implies_true, and_true, type, required, default, description, sample]
    refine ⟨inside "type", ?_, fun value found => inside "default" value (value_at_found _ _ _ found),
      inside "description", fun value found => inside "example" value (value_at_found _ _ _ found)⟩
    rintro _ ⟨⟩
    rfl
  · refine ⟨fun key inside => named.subset inside, ?_, ?_, ?_⟩
    · exact fun value found => rules.type value (type ▸ found)
    · exact fun value found => rules.description value (description ▸ found)
    · intro value found
      rw [required] at found
      exact ⟨_, (Option.some.inj found).symm⟩
  · rw [Parameter.ofEntries, Condition.text?, Condition.text?, type, description, required,
      value_restored _ _ _ default, value_restored _ _ _ sample]
    rfl

structure Rewraps {α : Type} (rule : Json → Prop) (make : Json → α) (wrap : α → Json) (decoded : α) :
    Prop where
  proper : (wrap decoded).wellFormed = true
  follows : rule (wrap decoded)
  same : make (wrap decoded) = decoded

structure Rewritten {α : Type} (rule : Json → Prop) (make : Json → α) (empty decoded : α) (key : String)
    (entries : Entries Json) : Prop where
  proper : ∀ value, Entries.find? key entries = some value → value.wellFormed = true
  must : Must key rule entries
  same : ((Entries.find? key entries).map make).getD empty = decoded

theorem Rewraps.written {α : Type} {rule : Json → Prop} {make : Json → α} {wrap : α → Json} {decoded : α}
    (rewraps : Rewraps rule make wrap decoded) (empty : α) (key : String) (entries : Entries Json)
    (there : Entries.find? key entries = some (wrap decoded)) :
    Rewritten rule make empty decoded key entries where
  proper := fun value found => by
    rw [there, Option.some.injEq] at found
    exact found ▸ rewraps.proper
  must := ⟨_, there, rewraps.follows⟩
  same := by rw [there, Option.map_some, Option.getD_some, rewraps.same]

theorem field_rewritten {α : Type} (rule : Json → Prop) (make : Json → α) (wrap : α → Json) (empty : α)
    (nothing : Rewraps rule make wrap empty)
    (restored : ∀ value, value.wellFormed = true → rule value → Rewraps rule make wrap (make value))
    (key : String) (entries others : Entries Json) (proper : (object entries).wellFormed = true)
    (may : May key rule entries)
    (there : Entries.find? key others = some (wrap (((Entries.find? key entries).map make).getD empty))) :
    Rewritten rule make empty (((Entries.find? key entries).map make).getD empty) key others := by
  refine Rewraps.written ?_ empty key others there
  cases found : Entries.find? key entries with
  | none => exact nothing
  | some value =>
      exact restored value (found_well_formed entries proper key value found) (may value found)

section

variable {α : Type} {rules : Entries Json → Prop} {make : Entries Json → α} {encode : α → Json}
  (restores : Restores rules make encode)

include restores

theorem record_restored (value : Json) (proper : value.wellFormed = true)
    (record : IsRecord rules value) :
    Rewraps (IsRecord rules) (fun value => make (entriesOf value)) encode (make (entriesOf value)) := by
  obtain ⟨entries, rfl, follow⟩ := record
  obtain ⟨others, written, properly, followed, again⟩ := restores entries proper follow
  have kept : encode (make (entriesOf (object entries))) = object others := written
  exact ⟨kept ▸ properly, ⟨others, kept, followed⟩, by rw [kept]; exact again⟩

theorem table_restored (value : Json) (proper : value.wellFormed = true)
    (table : IsTable (IsRecord rules) value) :
    Rewraps (IsTable (IsRecord rules)) (tableOf make) (Workflow.encodeTable encode)
      (tableOf make value) := by
  obtain ⟨entries, rfl, each⟩ := table
  obtain ⟨distinct, inside⟩ := (object_well_formed_iff entries).mp proper
  have restored := fun entry member =>
    record_restored restores entry.2 (inside entry member) (each entry member)
  have written : Workflow.encodeTable encode (tableOf make (object entries)) =
      object (entries.map fun entry => (entry.1, encode (make (entriesOf entry.2)))) := by
    rw [Workflow.encodeTable, tableOf, Entries.mapValues, Entries.mapValues, List.map_map]
    rfl
  refine ⟨?_, ?_, ?_⟩
  · rw [written, object_well_formed_iff, Entries.keys, List.map_map]
    exact ⟨distinct, List.forall_mem_map.mpr fun entry member => (restored entry member).proper⟩
  · exact ⟨_, written, List.forall_mem_map.mpr fun entry member => (restored entry member).follows⟩
  · rw [written, tableOf, tableOf, entries_of_object, entries_of_object, Entries.mapValues,
      Entries.mapValues, List.map_map]
    exact List.map_congr_left fun entry member => Prod.ext rfl (restored entry member).same

theorem list_restored (value : Json) (proper : value.wellFormed = true)
    (list : IsList (IsRecord rules) value) :
    Rewraps (IsList (IsRecord rules)) (listOf make) (fun items => array (items.map encode))
      (listOf make value) := by
  obtain ⟨items, rfl, each⟩ := list
  have inside := (array_well_formed_iff items).mp proper
  have restored := fun item member =>
    record_restored restores item (inside item member) (each item member)
  have written : (listOf make (array items)).map encode =
      items.map fun item => encode (make (entriesOf item)) := by
    rw [listOf, List.map_map]
    rfl
  refine ⟨?_, ?_, ?_⟩
  · rw [written, array_well_formed_iff]
    exact List.forall_mem_map.mpr fun item member => (restored item member).proper
  · exact ⟨_, congrArg array written, List.forall_mem_map.mpr fun item member =>
      (restored item member).follows⟩
  · rw [written, listOf, listOf, itemsOf, List.map_map]
    exact List.map_congr_left fun item member => (restored item member).same

theorem table_rewritten (key : String) (entries others : Entries Json)
    (proper : (object entries).wellFormed = true) (may : May key (IsTable (IsRecord rules)) entries)
    (there : Entries.find? key others =
      some (Workflow.encodeTable encode (((Entries.find? key entries).map (tableOf make)).getD []))) :
    Rewritten (IsTable (IsRecord rules)) (tableOf make) []
      (((Entries.find? key entries).map (tableOf make)).getD []) key others :=
  field_rewritten _ _ (Workflow.encodeTable encode) [] ⟨rfl, ⟨[], rfl, by simp⟩, rfl⟩
    (table_restored restores) key entries others proper may there

theorem list_rewritten (key : String) (entries others : Entries Json)
    (proper : (object entries).wellFormed = true) (may : May key (IsList (IsRecord rules)) entries)
    (there : Entries.find? key others =
      some (array ((((Entries.find? key entries).map (listOf make)).getD []).map encode))) :
    Rewritten (IsList (IsRecord rules)) (listOf make) []
      (((Entries.find? key entries).map (listOf make)).getD []) key others :=
  field_rewritten _ _ (fun items => array (items.map encode)) [] ⟨rfl, ⟨[], rfl, by simp⟩, rfl⟩
    (list_restored restores) key entries others proper may there

end

theorem workflow_named (workflow : Workflow) :
    Named Workflow.fieldNames (entriesOf workflow.encode) :=
  (keys_named [("name", string workflow.name)]).and (present_named "description" _)
    |>.and (keys_named [("input", _), ("constants", _), ("extract", _), ("output", _), ("steps", _)])

theorem constants_rewritten (entries others : Entries Json) (proper : (object entries).wellFormed = true)
    (may : May "constants" (IsRecord fun _ => True) entries)
    (there : Entries.find? "constants" others = some (object (Workflow.ofEntries entries).constants)) :
    Rewritten (IsRecord fun _ => True) entriesOf [] (Workflow.ofEntries entries).constants "constants"
      others := by
  refine field_rewritten _ _ object [] ⟨rfl, ⟨[], rfl, trivial⟩, rfl⟩ ?_ _ entries others proper may there
  rintro value properly ⟨constants, rfl, _⟩
  exact ⟨properly, ⟨constants, rfl, trivial⟩, rfl⟩

theorem steps_restored (entries : Entries Json) (proper : (object entries).wellFormed = true)
    (steps : Must "steps" (IsNonemptyList (IsRecord StepRules)) entries) :
    Rewraps (IsNonemptyList (IsRecord StepRules)) (listOf AuthoredStep.ofEntries)
      (fun steps => array (steps.map AuthoredStep.encode)) (Workflow.ofEntries entries).steps := by
  obtain ⟨_, found, items, rfl, nonempty, each⟩ := steps
  have decoded : (Workflow.ofEntries entries).steps = listOf AuthoredStep.ofEntries (array items) := by
    rw [Workflow.ofEntries, found, Option.map_some, Option.getD_some]
  obtain ⟨properly, ⟨again, written, follow⟩, same⟩ := list_restored step_restored (array items)
    (found_well_formed entries proper "steps" _ found) ⟨items, rfl, each⟩
  rw [decoded]
  refine ⟨properly, ⟨again, written, ?_, follow⟩, same⟩
  have listed := array.inj written
  rw [← listed, listOf, List.map_map]
  simpa [itemsOf] using nonempty

theorem workflow_restored : Restores WorkflowRules Workflow.ofEntries Workflow.encode := by
  intro entries proper rules
  obtain ⟨others, written, named⟩ : ∃ others, (Workflow.ofEntries entries).encode = object others ∧
      Named Workflow.fieldNames others := ⟨_, rfl, workflow_named _⟩
  have there := (object.inj written).symm
  have name : Entries.find? "name" others = Entries.find? "name" entries := by
    simp [there, Workflow.ofEntries,
      text_at_restored "name" entries (rules.name.weaken text_of_fitting)]
  have description : Entries.find? "description" others = Entries.find? "description" entries := by
    simp [there, Workflow.ofEntries, text_restored "description" entries rules.description]
  have input := table_rewritten parameter_restored "input" entries others proper rules.input
    (by simp [there, Workflow.ofEntries])
  have constants := constants_rewritten entries others proper rules.constants (by simp [there])
  have extract := list_rewritten extraction_restored "extract" entries others proper rules.extract
    (by simp [there, Workflow.ofEntries])
  have output := table_rewritten output_restored "output" entries others proper rules.output
    (by simp [there, Workflow.ofEntries])
  have steps := (steps_restored entries proper rules.steps).written [] "steps" others (by simp [there])
  refine ⟨others, written, named_well_formed _ others (by decide) named ?_, ?_, ?_⟩
  · have inside := found_well_formed entries proper
    simp only [Workflow.fieldNames, List.forall_mem_cons, List.not_mem_nil, IsEmpty.forall_iff,
      implies_true, and_true]
    exact ⟨name ▸ inside "name", description ▸ inside "description", input.proper, constants.proper,
      extract.proper, output.proper, steps.proper⟩
  · have weak : ∀ key rule, Must key rule others → May key rule others := fun key rule must =>
      ((must_iff key rule others).mp must).2
    obtain ⟨value, found, fits⟩ := rules.name
    exact ⟨fun key inside => named.subset inside, ⟨value, name.trans found, fits⟩,
      fun value found => rules.description value (description ▸ found), weak _ _ input.must,
      weak _ _ constants.must, weak _ _ extract.must, weak _ _ output.must, steps.must⟩
  · rw [Workflow.ofEntries, input.same, constants.same, extract.same, output.same, steps.same, textAt,
      Condition.text?, Condition.text?, name, description]
    rfl

theorem compile_assembles (entries : Entries Json) (proper : (object entries).wellFormed = true)
    (rules : WorkflowRules entries) :
    compile (object entries) = (Workflow.ofEntries entries).assemble := by
  have checked : check (object entries) = [] := (check_iff _).mpr ⟨entries, rfl, rules⟩
  rw [compile, checked, decode_workflow entries proper rules]

theorem decoded_workflow_agrees (document : Json) (proper : document.wellFormed = true)
    (valid : isValid document = true) :
    ∃ workflow program, Workflow.decode (.given document) = .ok workflow ∧
      isValid workflow.encode = true ∧ Workflow.decode (.given workflow.encode) = .ok workflow ∧
      compile document = .ok program ∧ workflow.compile = .ok program := by
  obtain ⟨program, compiled, _⟩ := document_stands document proper (List.isEmpty_iff.mp valid)
  obtain ⟨entries, rfl, rules⟩ := (valid_iff_workflow document).mp valid
  obtain ⟨others, written, properly, followed, again⟩ := workflow_restored entries proper rules
  refine ⟨.ofEntries entries, program, decode_workflow entries proper rules, ?_, ?_, compiled, ?_⟩
  · exact (valid_iff_workflow _).mpr ⟨others, written, followed⟩
  · rw [written, decode_workflow others properly followed, again]
  · rw [Workflow.compile, written, compile_assembles others properly followed, again,
      ← compile_assembles entries proper rules, compiled]

-- Keys out of their order, a default that is null, and an action by its second name.
def notice : Json :=
  object [("steps", array [object [("code", string "alert(1)"), ("action", string "playwright_code"),
      ("when", object [("value", bool true), ("op", string "=="), ("field", string "input.loud")]),
      ("name", string "Alert")]]),
    ("input", object [("loud", object [("default", null), ("type", string "flag")])]),
    ("name", string "notice")]

theorem decoded_workflow_agrees_notice :
    notice.wellFormed = true ∧ isValid notice = true ∧
      ∃ workflow program, Workflow.decode (.given notice) = .ok workflow ∧
        isValid workflow.encode = true ∧ Workflow.decode (.given workflow.encode) = .ok workflow ∧
        compile notice = .ok program ∧ workflow.compile = .ok program :=
  ⟨by decide, by rfl, decoded_workflow_agrees notice (by decide) (by rfl)⟩

end BrowserFlow
