import BrowserFlow.Proofs.Json.Sources
import BrowserFlow.Proofs.Program.Settled
/-! Programs as text, and back. A settled program is read from its own text, if that is not nested deeper
than a reader goes and its numbers are read from theirs; and every program that was compiled or read is
settled. -/
set_option autoImplicit false

namespace BrowserFlow

open Json

variable {texts : Bool}

theorem scope_read (scope : Scope) : Reads texts Scope.decode (string scope.name) scope :=
  word_of_read Scope.named scope.name scope (by cases scope <;> rfl)

theorem reference_read (target : Reference) : Reads texts Reference.decode target.encode target := by
  refine record_read _ _ _ _ (by simp [Entries.keys]) _ fun slots hold => ?_
  exact (required_read hold "scope" rfl (scope_read target.scope)).map Reference.mk
    |>.and (required_read hold "path" rfl
      (list_read decodeText string target.path fun text _ => text_read text))

theorem comparison_read (comparison : Comparison) :
    Reads texts (decodeWordOf Comparison.named) (string comparison.word) comparison :=
  word_of_read Comparison.named comparison.word comparison (by cases comparison <;> rfl)

theorem combination_read (combination : Combination) :
    Reads texts (decodeWordOf Combination.named) (string combination.word) combination :=
  word_of_read Combination.named combination.word combination (by cases combination <;> rfl)

theorem encode_parts (parts : List Guard) : Guard.encodeParts parts = parts.map Guard.encode := by
  induction parts with
  | nil => rfl
  | cons part rest ih => rw [Guard.encodeParts, List.map_cons, ih]

theorem compare_read (depth : Nat) (field : Reference) (comparison : Comparison) (value : Json)
    (settled : value.Settled) :
    Reads texts (Guard.decodeWithin (depth + 1)) (Guard.compare field comparison value).encode
      (.compare field comparison value) := by
  refine kinds_read _ _ "compare" _ _ _ rfl (by simp [Entries.keys, kindName]) ?_
  refine record_read _ _ _ _ (by simp [Entries.keys]) _ fun slots hold => ?_
  exact (required_read hold "field" rfl (reference_read field)).map Guard.compare
    |>.and (required_read hold "operator" rfl (comparison_read comparison))
    |>.and (required_read hold "value" rfl (any_read value settled))

theorem group_read (depth : Nat) (combination : Combination) (parts : List Guard)
    (each : ∀ part ∈ parts, Reads false (Guard.decodeWithin depth) part.encode part) :
    Reads texts (Guard.decodeWithin (depth + 1)) (Guard.group combination parts).encode
      (.group combination parts) := by
  rw [Guard.encode, encode_parts]
  refine kinds_read _ _ "group" _ _ _ rfl (by simp [Entries.keys, kindName]) ?_
  refine record_read _ _ _ _ (by simp [Entries.keys]) _ fun slots hold => ?_
  exact (required_read hold "mode" rfl (combination_read combination)).map Guard.group
    |>.and (required_read hold "conditions" rfl (list_read _ Guard.encode parts each))

mutual

-- A guard is read within any depth that its encoding does not reach; `texts` matters for the whole
-- guard only, as its parts have been held back.
theorem guard_read_within (guard : Guard) (settled : guard.Settled) (texts : Bool) (depth : Nat)
    (enough : guard.encode.depth < depth) :
    Reads texts (Guard.decodeWithin depth) guard.encode guard := by
  match guard, depth with
  | .compare field comparison value, depth + 1 =>
      exact compare_read depth field comparison value settled
  | .group combination parts, depth + 1 =>
      refine group_read depth combination parts (parts_read_within parts settled depth ?_)
      simp only [Guard.encode, Json.depth, entriesDepth] at enough
      omega
termination_by structural guard

theorem parts_read_within (parts : List Guard) (settled : Guard.PartsSettled parts) (depth : Nat)
    (enough : itemsDepth (Guard.encodeParts parts) < depth) :
    ∀ part ∈ parts, Reads false (Guard.decodeWithin depth) part.encode part := by
  match parts with
  | [] => simp
  | part :: rest =>
      rw [Guard.encodeParts, itemsDepth] at enough
      rw [List.forall_mem_cons]
      exact ⟨guard_read_within part settled.1 false depth (by omega),
        parts_read_within rest settled.2 depth (by omega)⟩
termination_by structural parts

end

theorem guard_read (guard : Guard) (settled : guard.Settled) :
    Reads texts Guard.decode guard.encode guard := by
  intro source holds
  have enough := holds.depth
  exact guard_read_within guard settled texts (source.depth + 1) (by omega) source holds

theorem segment_read (segment : Segment) : Reads false Segment.decode segment.encode segment := by
  cases segment with
  | text content =>
      exact choice_carried_read _ "text" _ _ _ rfl (map_read (text_read content) Segment.text)
  | reference target =>
      exact choice_carried_read _ "reference" _ _ _ rfl
        (map_read (reference_read target) Segment.reference)

theorem expression_read (expression : Expression) (settled : expression.Settled) :
    Reads false Expression.decode expression.encode expression := by
  cases expression with
  | literal value =>
      exact choice_carried_read _ "literal" _ _ _ rfl
        (map_read (any_read value settled) Expression.literal)
  | lookup target =>
      exact choice_carried_read _ "lookup" _ _ _ rfl
        (map_read (reference_read target) Expression.lookup)
  | template segments =>
      have read := list_read Segment.decode Segment.encode segments fun segment _ => segment_read segment
      exact choice_carried_read _ "template" _ _ _ rfl (map_read read Expression.template)

theorem action_read (action : Action) (entries : Entries Json) (operation : Operation)
    (named : Entries.keys entries = Operation.fieldNames action)
    (made : ∀ slots, Slots.Hold (Source.Holds false) slots entries →
      (Operation.fields action).Make slots operation) :
    Reads texts Operation.decode (object ((kindName, string action.name) :: entries)) operation := by
  have distinct : (kindName :: Operation.fieldNames action).Nodup := by cases action <;> decide
  rw [← named, List.nodup_cons] at distinct
  refine kinds_read _ _ action.name (Operation.decodeFields action) entries operation ?_ distinct.1 ?_
  · cases action <;> rfl
  · exact record_read _ _ _ entries distinct.2 operation made

theorem operation_read (operation : Operation)
    (settled : ∀ value ∈ operation.expression?, value.Settled) :
    Reads texts Operation.decode operation.encode operation := by
  have selected : ∀ {slots entries}, Slots.Hold (Source.Holds false) slots entries →
      ∀ selector, Entries.find? "selector" entries = some (string selector) →
        (required "selector" decodeText).Make slots selector := fun hold selector found =>
    required_read hold "selector" found (text_read selector)
  cases operation with
  | navigate url =>
      refine action_read .navigate _ _ rfl fun slots hold => ?_
      exact (required_read hold "url" rfl (text_read url)).map Operation.navigate
  | fill selector value =>
      refine action_read .fill _ _ rfl fun slots hold => ?_
      exact (selected hold selector rfl).map Operation.fill
        |>.and (required_read hold "value" rfl (expression_read value (settled value rfl)))
  | click selector =>
      refine action_read .click _ _ rfl fun slots hold => ?_
      exact (selected hold selector rfl).map Operation.click
  | press selector key =>
      refine action_read .press _ _ rfl fun slots hold => ?_
      exact (selected hold selector rfl).map Operation.press
        |>.and (required_read hold "key" rfl (text_read key))
  | type value =>
      refine action_read .type _ _ rfl fun slots hold => ?_
      exact (required_read hold "value" rfl (expression_read value (settled value rfl))).map
        Operation.type
  | select selector value =>
      refine action_read .select _ _ rfl fun slots hold => ?_
      exact (selected hold selector rfl).map Operation.select
        |>.and (required_read hold "value" rfl (expression_read value (settled value rfl)))
  | fileUpload selector files =>
      refine action_read .fileUpload _ _ rfl fun slots hold => ?_
      exact (selected hold selector rfl).map Operation.fileUpload
        |>.and (required_read hold "files" rfl (expression_read files (settled files rfl)))
  | wait selector timeout =>
      refine action_read .wait _ _ rfl fun slots hold => ?_
      exact (selected hold selector rfl).map Operation.wait
        |>.and (required_read hold "timeout_ms" rfl (natural_read _ _ timeout id))
  | rawCode code =>
      refine action_read .rawCode _ _ rfl fun slots hold => ?_
      exact (required_read hold "code" rfl (text_read code)).map Operation.rawCode

theorem text_there (text : Option String) :
    ∀ value ∈ text, (string value).isNull = false ∧ Reads texts decodeText (string value) value :=
  fun value _ => ⟨rfl, text_read value⟩

theorem value_there (value : Option Json) (definite : Definite value) :
    ∀ found ∈ value, found.isNull = false ∧ Reads texts decodeAny found found := fun found there =>
  ⟨(definite found there).2, any_read found (definite found there).1⟩

theorem parameter_read (parameter : Parameter) (settled : parameter.Settled) :
    Reads texts Parameter.decode parameter.encode parameter := by
  refine record_read _ _ _ _ ((present_named "type" _).and (keys_named _)
    |>.and (present_named "default" _) |>.and (present_named "description" _)
    |>.and (present_named "example" _) |>.distinct (by simp [Entries.keys])) _ fun slots hold => ?_
  exact (optional_read hold "type" string (by simp) (text_there parameter.type)).map Parameter.mk
    |>.and (defaulted_read hold "required" (by simp) (flag_read parameter.required))
    |>.and (optional_read hold "default" id (by simp) (value_there _ settled.default))
    |>.and (optional_read hold "description" string (by simp) (text_there parameter.description))
    |>.and (optional_read hold "example" id (by simp) (value_there _ settled.sample))

theorem extraction_read (extraction : Extraction) :
    Reads texts Extraction.decode extraction.encode extraction := by
  refine record_read _ _ _ _ ((keys_named _).and (present_named "type" _)
    |>.distinct (by simp [Entries.keys])) _ fun slots hold => ?_
  exact (required_read hold "field" (by simp) (text_read extraction.field)).map Extraction.mk
    |>.and (required_read hold "prompt" (by simp) (text_read extraction.prompt))
    |>.and (optional_read hold "type" string (by simp) (text_there extraction.type))

theorem output_read (output : Output) : Reads texts Output.decode output.encode output := by
  refine record_read _ _ _ _ ((present_named "description" _).distinct (by simp)) _ fun slots hold => ?_
  exact (optional_read hold "description" string (by simp) (text_there output.description)).map Output.mk

theorem step_read (step : Step) (settled : step.Settled) : Reads texts Step.decode step.encode step := by
  have guarded : ∀ guard ∈ step.guard, guard.encode.isNull = false ∧
      Reads texts Guard.decode guard.encode guard := fun guard there => by
    refine ⟨?_, guard_read guard (settled.guard guard there)⟩
    cases guard <;> rfl
  refine record_read _ _ _ _ ((keys_named _).and (present_named "selector" _)
    |>.and (present_named "hint" _) |>.and (present_named "outputKey" _)
    |>.and (present_named "guard" _) |>.and (keys_named _)
    |>.distinct (by simp [Entries.keys])) _ fun slots hold => ?_
  exact (required_read hold "index" (by simp) (natural_read _ _ step.index id)).map Step.mk
    |>.and (required_read hold "name" (by simp) (text_read step.name))
    |>.and (required_read hold "action" (by simp)
      (word_of_read Action.named step.action.name step.action (by cases step.action <;> rfl)))
    |>.and (optional_read hold "selector" string (by simp) (text_there step.selector))
    |>.and (optional_read hold "hint" string (by simp) (text_there step.hint))
    |>.and (optional_read hold "outputKey" string (by simp) (text_there step.outputKey))
    |>.and (optional_read hold "guard" Guard.encode (by simp) guarded)
    |>.and (required_read hold "body" (by simp) (operation_read step.operation settled.expression))

theorem program_read (program : Program) (settled : program.Settled) :
    Reads texts Program.decode program.encode program := by
  have constants : Reads texts (decodeTable decodeAny) (object program.constants) program.constants := by
    have read := table_read decodeAny id program.constants (settled.constants.weaken fun value stable =>
      (any_read value stable : Reads texts decodeAny (id value) value))
    simpa [Entries.mapValues] using read
  refine record_read _ _ _ _ ((keys_named _).and (present_named "description" _)
    |>.and (keys_named _) |>.distinct (by simp [Entries.keys])) _ fun slots hold => ?_
  exact (required_read hold "name" (by simp) (text_read program.name)).map Program.mk
    |>.and (optional_read hold "description" string (by simp) (text_there program.description))
    |>.and (defaulted_read hold "inputs" (by simp [Workflow.encodeTable])
      (table_read _ Parameter.encode program.inputs (settled.inputs.weaken parameter_read)))
    |>.and (defaulted_read hold "constants" (by simp) constants)
    |>.and (defaulted_read hold "extract" (by simp)
      (list_read _ Extraction.encode program.extractions fun extraction _ => extraction_read extraction))
    |>.and (defaulted_read hold "outputs" (by simp [Workflow.encodeTable])
      (table_read _ Output.encode program.outputs
        (settled.outputs.weaken fun output _ => output_read output)))
    |>.and (required_read hold "steps" (by simp)
      (list_read _ Step.encode program.steps fun step there => step_read step (settled.steps step there)))

namespace Program

def document (program : Program) : Json :=
  Artifact.encode ⟨formatVersion, compilerVersion, program⟩

theorem document_read (program : Program) (settled : program.Settled) :
    Reads texts Artifact.decode program.document ⟨formatVersion, compilerVersion, program⟩ := by
  refine record_read _ _ _ _ (by simp [Entries.keys]) _ fun slots hold => ?_
  exact (required_read hold "format_version" rfl
      (natural_read _ _ formatVersion fun _ => by decide)).map Artifact.mk
    |>.and (required_read hold "compiler_version" rfl (text_read compilerVersion))
    |>.and (required_read hold "program" rfl (program_read program settled))

-- What is taken for granted of a program's text: it is not nested deeper than a reader goes, its whole
-- numbers have 64 bits, and the texts of its doubles are read back.
structure IsPrintable (program : Program) : Prop where
  shallow : program.document.depth < jsonNestingLimit
  sized : ∀ whole, integer whole ∈ program.document.numbers → Number.fitsInteger whole = true
  doubles : ∀ double, float double ∈ program.document.numbers → Kept (float double)

theorem settled_reloaded (program : Program) (settled : program.Settled)
    (printable : program.IsPrintable) : readArtifact program.artifactText = .ok program := by
  have kept := numbers_kept program.document printable.sized printable.doubles
  obtain ⟨writes, ended⟩ := Written.pretty_written program.document kept printable.shallow
  have holds : (Source.written (.ofText program.artifactText)).Holds true program.document :=
    ⟨⟨rfl, writes⟩, fun number there => kept_well_formed number (kept number there),
      printable.shallow⟩
  have decoded := document_read program settled _ holds
  have read : decodeDocument Artifact.decode program.artifactText =
      .ok ⟨formatVersion, compilerVersion, program⟩ := by
    have closed : (Written.ofText program.artifactText).checkEnd = .ok () := ended
    simp only [decodeDocument, decoded, closed, bind, Except.bind]
    rfl
  simp only [readArtifact, read, if_true]

theorem artifact_lossless (program : Program)
    (origin : (∃ document, compile document = .ok program) ∨
      ∃ text, readArtifact text = .ok program)
    (printable : program.IsPrintable) :
    ∃ reloaded, readArtifact program.artifactText = .ok reloaded ∧ reloaded = program ∧
      reloaded.artifactText = program.artifactText := by
  have settled : program.Settled := by
    rcases origin with ⟨document, compiled⟩ | ⟨text, read⟩
    · exact compile_settled document program compiled
    · exact read_artifact_settled text program read
  exact ⟨program, settled_reloaded program settled printable, rfl, rfl⟩

def survey : Json :=
  object [("name", string "survey"),
    ("input", object [("user", object [("required", bool true)])]),
    ("constants", object [("rate", float ⟨false, Number.twoTo 1073⟩),
      ("limits", array [null, integer 1])]),
    ("steps", array [
      object [("name", string "Enter"), ("action", string "fill"), ("selector", string "#user"),
        ("value", string "Dear $\x7binput.user\x7d!"),
        ("when", object [("match", string "all"), ("conditions", array [
          object [("field", string "input.user"), ("op", string "!="), ("value", string "")],
          object [("field", string "constants.rate"), ("op", string "<"), ("value", integer 2)]])])],
      object [("name", string "Wait"), ("action", string "wait"), ("selector", string "#done")]])]

def surveyProgram : Program where
  name := "survey"
  description := none
  inputs := [("user", ⟨none, true, none, none, none⟩)]
  constants := [("rate", float ⟨false, Number.twoTo 1073⟩), ("limits", array [null, integer 1])]
  extractions := []
  outputs := []
  steps := [
    ⟨0, "Enter", .fill, some "#user", none, none,
      some (.group .all [.compare ⟨.input, ["user"]⟩ .notEqual (string ""),
        .compare ⟨.constants, ["rate"]⟩ .less (integer 2)]),
      .fill "#user" (.template [.text "Dear ", .reference ⟨.input, ["user"]⟩, .text "!"])⟩,
    ⟨1, "Wait", .wait, some "#done", none, none, none, .wait "#done" 30000⟩]

theorem survey_compiles : compile survey = .ok surveyProgram := by rfl

theorem survey_printable : surveyProgram.IsPrintable := by
  have half : Kept (float ⟨false, Number.twoTo 1073⟩) := float_kept _ (by decide +kernel)
  have numbers : surveyProgram.document.numbers = [integer 1, float ⟨false, Number.twoTo 1073⟩,
      integer 1, integer 0, integer 2, integer 1, integer 30000] := by rfl
  refine ⟨by decide, fun whole member => ?_, fun double member => ?_⟩
  · rw [numbers] at member
    simp only [List.mem_cons, integer.injEq, reduceCtorEq, false_or, List.not_mem_nil,
      or_false] at member
    rcases member with rfl | rfl | rfl | rfl | rfl | rfl <;> rfl
  · rw [numbers] at member
    simp only [List.mem_cons, float.injEq, reduceCtorEq, false_or, List.not_mem_nil,
      or_false] at member
    rw [member]
    exact half

theorem artifact_lossless_survey : compile survey = .ok surveyProgram ∧ surveyProgram.IsPrintable ∧
    ∃ reloaded, readArtifact surveyProgram.artifactText = .ok reloaded ∧ reloaded = surveyProgram ∧
      reloaded.artifactText = surveyProgram.artifactText :=
  ⟨survey_compiles, survey_printable,
    artifact_lossless surveyProgram (.inl ⟨survey, survey_compiles⟩) survey_printable⟩

end Program

end BrowserFlow
