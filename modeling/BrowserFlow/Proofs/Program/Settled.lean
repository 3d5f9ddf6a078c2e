import BrowserFlow.Program.Artifact
import BrowserFlow.Proofs.Condition
import BrowserFlow.Proofs.Json.Decoded
import BrowserFlow.Proofs.Program.Compile
/-! What every program is like that was compiled from a document or read from a text: its values are
settled, its tables have distinct keys, and a default or sample that is there is not null. These are what
the text of a program could not tell apart. -/
set_option autoImplicit false

namespace BrowserFlow

open Json

def Expression.Settled : Expression → Prop
  | literal value => value.Settled
  | lookup _ => True
  | template _ => True

namespace Guard

mutual

def Settled (guard : Guard) : Prop :=
  match guard with
  | compare _ _ value => value.Settled
  | group _ parts => PartsSettled parts
termination_by structural guard

def PartsSettled (parts : List Guard) : Prop :=
  match parts with
  | [] => True
  | part :: rest => Settled part ∧ PartsSettled rest
termination_by structural parts

end

theorem parts_settled_iff (parts : List Guard) :
    PartsSettled parts ↔ ∀ part ∈ parts, part.Settled := by
  induction parts with
  | nil => simp [PartsSettled]
  | cons part rest ih => simp [PartsSettled, ih]

end Guard

def Json.Definite (value : Option Json) : Prop :=
  ∀ found ∈ value, found.Settled ∧ found.isNull = false

structure Parameter.Settled (parameter : Parameter) : Prop where
  default : Json.Definite parameter.default
  sample : Json.Definite parameter.sample

structure Step.Settled (step : Step) : Prop where
  guard : ∀ guard ∈ step.guard, guard.Settled
  expression : ∀ value ∈ step.operation.expression?, value.Settled

structure Program.Settled (program : Program) : Prop where
  inputs : Entries.Table Parameter.Settled program.inputs
  constants : Entries.Table Json.Settled program.constants
  outputs : Entries.Table (fun _ => True) program.outputs
  steps : ∀ step ∈ program.steps, step.Settled

theorem parameter_yields : Yields Parameter.decode Parameter.Settled := by
  refine record_yields _ _ _ _ fun slots => ?_
  simp only [Parameter.fields, Fields.made_and_iff, Fields.made_map_iff]
  intro type _ required _ default defaulted description _ sample sampled
  have definite : ∀ source value, source.isNull = false → decodeAny source = .ok value →
      value.Settled ∧ value.isNull = false := fun source value somewhat decoded =>
    ⟨any_yields source value decoded, (any_null source value decoded).trans somewhat⟩
  exact ⟨optional_yields definite defaulted, optional_yields definite sampled⟩

theorem expression_yields : Yields Expression.decode Expression.Settled := by
  refine choice_yields _ _ ?_
  simp only [List.forall_mem_cons, Choice.Yields]
  refine ⟨?_, ?_, ?_, by simp⟩
  · intro source value decoded
    obtain ⟨inner, decodedInner, rfl⟩ := (map_ok_iff _ _ _).mp decoded
    exact any_yields source inner decodedInner
  · intro source value decoded
    obtain ⟨_, _, rfl⟩ := (map_ok_iff _ _ _).mp decoded
    trivial
  · intro source value decoded
    obtain ⟨_, _, rfl⟩ := (map_ok_iff _ _ _).mp decoded
    trivial

theorem guard_yields (depth : Nat) : Yields (Guard.decodeWithin depth) Guard.Settled := by
  induction depth with
  | zero => exact fun source guard decoded => absurd decoded (mismatch_fails source _ guard)
  | succ depth ih =>
      refine kinds_yield _ _ _ ?_
      simp only [List.forall_mem_cons]
      refine ⟨?_, ?_, by simp⟩
      · refine record_yields _ _ _ _ fun slots => ?_
        simp only [Guard.compareFields, Fields.made_and_iff, Fields.made_map_iff]
        intro field _ comparison _ value valued
        exact required_yields any_yields valued
      · refine record_yields _ _ _ _ fun slots => ?_
        simp only [Guard.groupFields, Fields.made_and_iff, Fields.made_map_iff]
        intro combination _ parts parted
        exact (Guard.parts_settled_iff parts).mpr (required_yields (list_yields _ _ ih) parted)

-- No operation holds more than one expression.
theorem operation_yields (action : Action) : Yields (Operation.decodeFields action)
    fun operation => ∀ value ∈ operation.expression?, value.Settled := by
  refine record_yields _ _ _ _ fun slots => ?_
  cases action <;> simp only [Operation.fields, Fields.made_and_iff, Fields.made_map_iff]
  case fill | select | fileUpload =>
    rintro selector _ value valued _ ⟨⟩
    exact required_yields expression_yields valued
  case type =>
    rintro value valued _ ⟨⟩
    exact required_yields expression_yields valued
  case press | wait => rintro _ _ _ _ _ ⟨⟩
  case navigate | click | rawCode => rintro _ _ _ ⟨⟩

theorem operation_kinds_yield : Yields Operation.decode
    fun operation => ∀ value ∈ operation.expression?, value.Settled := by
  refine kinds_yield _ _ _ fun variant member => ?_
  obtain ⟨⟨name, action⟩, _, rfl⟩ := List.mem_map.mp member
  exact operation_yields action

theorem step_yields : Yields Step.decode Step.Settled := by
  refine record_yields _ _ _ _ fun slots => ?_
  simp only [Step.fields, Fields.made_and_iff, Fields.made_map_iff]
  intro index _ name _ action _ selector _ hint _ outputKey _ guard guarded operation operated
  exact ⟨optional_yields (fun source guard _ decoded => guard_yields _ source guard decoded) guarded,
    required_yields operation_kinds_yield operated⟩

theorem program_yields : Yields Program.decode Program.Settled := by
  refine record_yields _ _ _ _ fun slots => ?_
  simp only [Program.fields, Fields.made_and_iff, Fields.made_map_iff]
  intro name _ description _ inputs inputsMade constants constantsMade extractions _ outputs outputsMade
    steps stepsMade
  exact ⟨defaulted_yields (table_yields _ _ parameter_yields) (Entries.table_nil _) inputsMade,
    defaulted_yields (table_yields _ _ any_yields) (Entries.table_nil _) constantsMade,
    defaulted_yields (table_yields _ _ fun _ _ _ => trivial) (Entries.table_nil _) outputsMade,
    required_yields (list_yields _ _ step_yields) stepsMade⟩

theorem artifact_yields : Yields Artifact.decode fun artifact => artifact.program.Settled := by
  refine record_yields _ _ _ _ fun slots => ?_
  simp only [Artifact.fields, Fields.made_and_iff, Fields.made_map_iff]
  intro format _ compiler _ program made
  exact required_yields program_yields made

theorem read_artifact_settled (text : String) (program : Program)
    (read : Program.readArtifact text = .ok program) : program.Settled := by
  unfold Program.readArtifact at read
  split at read
  · cases read
  · rename_i artifact decoded
    split at read
    · cases read
      simp only [decodeDocument, bind_ok_iff] at decoded
      obtain ⟨found, decoded, _, _, same⟩ := decoded
      cases same
      exact artifact_yields _ artifact decoded
    · cases read

structure AuthoredStep.Settled (step : AuthoredStep) : Prop where
  value : ∀ value ∈ step.value, value.Settled
  guard : ∀ condition ∈ step.guard, condition.Settled

theorem authored_step_yields : Yields AuthoredStep.decode AuthoredStep.Settled := by
  refine record_yields _ _ _ _ fun slots => ?_
  simp only [AuthoredStep.fields, Fields.made_and_iff, Fields.made_map_iff]
  intro name _ action _ selector _ url _ value valued key _ file _ timeout _ code _ hint _ guard guarded
    output _ description _
  have settled : ∀ source value, source.isNull = false → decodeAny source = .ok value → value.Settled :=
    fun source value _ decoded => any_yields source value decoded
  exact ⟨optional_yields settled valued, optional_yields settled guarded⟩

structure Workflow.Settled (workflow : Workflow) : Prop where
  inputs : Entries.Table Parameter.Settled workflow.inputs
  constants : Entries.Table Json.Settled workflow.constants
  outputs : Entries.Table (fun _ => True) workflow.outputs
  steps : ∀ step ∈ workflow.steps, step.Settled

theorem workflow_yields : Yields Workflow.decode Workflow.Settled := by
  refine record_yields _ _ _ _ fun slots => ?_
  simp only [Workflow.fields, Fields.made_and_iff, Fields.made_map_iff]
  intro name _ description _ inputs inputsMade constants constantsMade extractions _ outputs outputsMade
    steps stepsMade
  exact ⟨defaulted_yields (table_yields _ _ parameter_yields) (Entries.table_nil _) inputsMade,
    defaulted_yields (table_yields _ _ any_yields) (Entries.table_nil _) constantsMade,
    defaulted_yields (table_yields _ _ fun _ _ _ => trivial) (Entries.table_nil _) outputsMade,
    defaulted_yields (list_yields _ _ authored_step_yields) (by simp) stepsMade⟩

theorem of_text_settled (raw : String) : (Expression.ofText raw).Settled := by
  unfold Expression.ofText
  dsimp only
  split
  · trivial
  · split
    · trivial
    · rfl

theorem of_value_settled (value : Json) (settled : value.Settled) :
    (Expression.ofValue value).Settled := by
  unfold Expression.ofValue
  split
  · exact of_text_settled _
  · exact settled

theorem comparison_settled (entries : Entries Json) (guard : Guard) (settled : (object entries).Settled)
    (compiled : Condition.comparison entries = .ok guard) : guard.Settled := by
  simp only [Condition.comparison, bind_ok_iff] at compiled
  obtain ⟨_, _, _, _, _, _, _, _, value, found, same⟩ := compiled
  cases same
  cases there : Entries.find? "value" entries with
  | none => simp [there] at found
  | some other =>
      simp only [there, Option.elim, Except.ok.injEq] at found
      subst found
      exact settled_entries entries settled _ (Entries.find_member "value" other entries there)

mutual

theorem condition_settled (condition : Json) (guard : Guard) (settled : condition.Settled)
    (compiled : Condition.compile condition = .ok guard) : guard.Settled := by
  match condition with
  | object entries =>
      rw [Condition.compile] at compiled
      split at compiled
      · cases compiled
      · cases compiled
      · exact comparison_settled entries guard settled compiled
      · exact group_settled _ entries guard (settled_entries entries settled) compiled
  | .null => cases compiled
  | .bool _ => cases compiled
  | .integer _ => cases compiled
  | .float _ => cases compiled
  | .string _ => cases compiled
  | .array _ => cases compiled
termination_by structural condition

theorem group_settled (combination : Option Combination) (entries : List (String × Json)) (guard : Guard)
    (settled : ∀ entry ∈ entries, entry.2.Settled)
    (compiled : Condition.compileGroup combination entries = .ok guard) : guard.Settled := by
  match entries with
  | [] => cases compiled
  | (key, value) :: rest =>
      rw [List.forall_mem_cons] at settled
      by_cases same : key = "conditions"
      · subst same
        match value with
        | .array (first :: others) =>
            cases combination with
            | none => cases compiled
            | some combination =>
                rw [Condition.compileGroup, if_pos rfl] at compiled
                split at compiled
                · cases compiled
                · rename_i guard found
                  obtain ⟨guards, guardsFound, rfl⟩ := (map_ok_iff _ _ _).mp compiled
                  have each := settled_items (first :: others) settled.1
                  rw [List.forall_mem_cons] at each
                  exact ⟨condition_settled first guard each.1 found,
                    conditions_settled others guards each.2 guardsFound⟩
        | .array [] => cases compiled
        | .null => cases compiled
        | .bool _ => cases compiled
        | .integer _ => cases compiled
        | .float _ => cases compiled
        | .string _ => cases compiled
        | .object _ => cases compiled
      · rw [Condition.group_passed combination key value rest same] at compiled
        exact group_settled combination rest guard settled.2 compiled
termination_by structural entries

theorem conditions_settled (conditions : List Json) (guards : List Guard)
    (settled : ∀ condition ∈ conditions, condition.Settled)
    (compiled : Condition.compileParts conditions = .ok guards) : Guard.PartsSettled guards := by
  match conditions with
  | [] =>
      cases compiled
      trivial
  | condition :: rest =>
      rw [List.forall_mem_cons] at settled
      rw [Condition.compileParts] at compiled
      split at compiled
      · cases compiled
      · rename_i first found
        obtain ⟨others, othersFound, rfl⟩ := (map_ok_iff _ _ _).mp compiled
        exact ⟨condition_settled condition first settled.1 found,
          conditions_settled rest others settled.2 othersFound⟩
termination_by structural conditions

end

theorem operation_settled (step : AuthoredStep) (settled : step.Settled) (action : Action)
    (operation : Operation) (operated : step.operation action = .ok operation) :
    ∀ value ∈ operation.expression?, value.Settled := by
  intro expression there
  rcases AuthoredStep.operation_expression step action operation operated expression there with
    ⟨value, given, rfl⟩ | ⟨file, _, rfl⟩
  · exact of_value_settled value (settled.value value given)
  · exact of_text_settled file

theorem compiled_step_settled (index : Nat) (authored : AuthoredStep) (step : Step)
    (settled : authored.Settled) (compiled : authored.compile index = .ok step) : step.Settled := by
  obtain ⟨action, guard, operation, _, guarded, operated, rfl⟩ :=
    (AuthoredStep.compile_ok_iff index authored step).mp compiled
  refine ⟨?_, operation_settled authored settled action operation operated⟩
  unfold AuthoredStep.compileGuard at guarded
  split at guarded
  · cases guarded
    simp
  · rename_i condition given
    split at guarded
    · rename_i found inner
      cases guarded
      rintro _ ⟨⟩
      exact condition_settled condition found (settled.guard condition given) inner
    · cases guarded

theorem compiled_steps_settled (index : Nat) (authored : List AuthoredStep) (steps : List Step)
    (settled : ∀ step ∈ authored, step.Settled)
    (compiled : AuthoredStep.compileAll index authored = .ok steps) : ∀ step ∈ steps, step.Settled := by
  induction authored generalizing index steps with
  | nil =>
      cases compiled
      simp
  | cons first rest ih =>
      obtain ⟨head, others, headCompiled, othersCompiled, rfl⟩ :=
        (AuthoredStep.compile_all_cons_iff index first rest steps).mp compiled
      rw [List.forall_mem_cons] at settled ⊢
      exact ⟨compiled_step_settled index first head settled.1 headCompiled,
        ih (index + 1) others settled.2 othersCompiled⟩

theorem compile_settled (document : Json) (program : Program)
    (compiled : compile document = .ok program) : program.Settled := by
  obtain ⟨_, workflow, decoded, assembled⟩ := (compile_ok_iff document program).mp compiled
  obtain ⟨steps, stepsCompiled, rfl⟩ := (assemble_ok_iff workflow program).mp assembled
  have settled := workflow_yields _ workflow decoded
  exact ⟨settled.inputs, settled.constants, settled.outputs,
    compiled_steps_settled 0 workflow.steps steps settled.steps stepsCompiled⟩

end BrowserFlow
