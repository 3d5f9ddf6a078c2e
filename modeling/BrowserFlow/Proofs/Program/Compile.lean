import BrowserFlow.Program.Compile
import BrowserFlow.Proofs.Success
/-! What compiling takes and gives: a step, a list of steps and a workflow taken apart into what they were
compiled from. A compiled step has its position for an index. -/
set_option autoImplicit false

namespace BrowserFlow

open Json

namespace AuthoredStep

theorem compile_ok_iff (index : Nat) (authored : AuthoredStep) (step : Step) :
    authored.compile index = .ok step ↔
      ∃ action guard operation, Action.ofName? authored.action = some action ∧
        authored.compileGuard = .ok guard ∧ authored.operation action = .ok operation ∧
        step = ⟨index, authored.name, action, authored.selector, authored.hint, authored.output,
          guard, operation⟩ := by
  unfold compile
  cases Action.ofName? authored.action with
  | none => simp
  | some action =>
      simp only [bind_ok_iff, Option.some.injEq, exists_and_left, exists_eq_left']
      constructor
      · rintro ⟨guard, guarded, operation, operated, same⟩
        cases same
        exact ⟨guard, guarded, operation, operated, rfl⟩
      · rintro ⟨guard, guarded, operation, operated, rfl⟩
        exact ⟨guard, guarded, operation, operated, rfl⟩

theorem compile_all_cons_iff (index : Nat) (first : AuthoredStep) (rest : List AuthoredStep)
    (steps : List Step) :
    compileAll index (first :: rest) = .ok steps ↔
      ∃ head others, first.compile index = .ok head ∧ compileAll (index + 1) rest = .ok others ∧
        steps = head :: others := by
  simp only [compileAll, bind_ok_iff]
  constructor
  · rintro ⟨head, headCompiled, others, othersCompiled, same⟩
    cases same
    exact ⟨head, others, headCompiled, othersCompiled, rfl⟩
  · rintro ⟨head, others, headCompiled, othersCompiled, rfl⟩
    exact ⟨head, headCompiled, others, othersCompiled, rfl⟩

theorem compile_all_indices (index : Nat) (authored : List AuthoredStep) (steps : List Step)
    (compiled : compileAll index authored = .ok steps) (position : Nat) (step : Step)
    (there : steps[position]? = some step) : step.index = index + position := by
  induction authored generalizing index steps position with
  | nil =>
      cases compiled
      simp at there
  | cons first rest ih =>
      obtain ⟨head, others, headCompiled, othersCompiled, rfl⟩ :=
        (compile_all_cons_iff index first rest steps).mp compiled
      cases position with
      | zero =>
          obtain ⟨_, _, _, _, _, _, rfl⟩ := (compile_ok_iff index first head).mp headCompiled
          cases there
          rfl
      | succ position =>
          have shifted := ih (index + 1) others othersCompiled position there
          omega

theorem required_there {α : Type} (step : AuthoredStep) (action : Action) (field : String)
    (given : Option α) (value : α) (found : step.requireField action field given = .ok value) :
    given = some value := by
  cases given with
  | none => cases found
  | some other =>
      cases found
      rfl

theorem operation_expression (step : AuthoredStep) (action : Action) (operation : Operation)
    (operated : step.operation action = .ok operation) :
    ∀ expression ∈ operation.expression?,
      (∃ value, step.value = some value ∧ expression = .ofValue value) ∨
        ∃ file, step.file = some file ∧ expression = .ofText file := by
  intro expression there
  cases action <;> simp only [AuthoredStep.operation, bind_ok_iff] at operated
  case fill | select =>
    obtain ⟨_, _, value, valued, same⟩ := operated
    cases same
    cases there
    exact .inl ⟨value, required_there step _ _ _ value valued, rfl⟩
  case type =>
    obtain ⟨value, valued, same⟩ := operated
    cases same
    cases there
    exact .inl ⟨value, required_there step _ _ _ value valued, rfl⟩
  case fileUpload =>
    obtain ⟨_, _, file, filed, same⟩ := operated
    cases same
    cases there
    exact .inr ⟨file, required_there step _ _ _ file filed, rfl⟩
  case press =>
    obtain ⟨_, _, _, _, same⟩ := operated
    cases same
    cases there
  case navigate | click | wait | rawCode =>
    obtain ⟨_, _, same⟩ := operated
    cases same
    cases there

theorem operation_action (step : AuthoredStep) (action : Action) (operation : Operation)
    (operated : step.operation action = .ok operation) : operation.action = action := by
  cases action <;> simp only [AuthoredStep.operation, bind_ok_iff] at operated
  case fill | select | fileUpload | press =>
    obtain ⟨_, _, _, _, same⟩ := operated
    cases same
    rfl
  case navigate | click | type | wait | rawCode =>
    obtain ⟨_, _, same⟩ := operated
    cases same
    rfl

theorem compile_all_actions (index : Nat) (authored : List AuthoredStep) (steps : List Step)
    (compiled : compileAll index authored = .ok steps) :
    ∀ step ∈ steps, step.operation.action = step.action := by
  induction authored generalizing index steps with
  | nil =>
      cases compiled
      simp
  | cons first rest ih =>
      obtain ⟨head, others, headCompiled, othersCompiled, rfl⟩ :=
        (compile_all_cons_iff index first rest steps).mp compiled
      obtain ⟨action, _, operation, _, _, operated, rfl⟩ :=
        (compile_ok_iff index first head).mp headCompiled
      rw [List.forall_mem_cons]
      exact ⟨operation_action first action operation operated, ih (index + 1) others othersCompiled⟩

end AuthoredStep

theorem assemble_ok_iff (workflow : Workflow) (program : Program) :
    workflow.assemble = .ok program ↔
      ∃ steps, AuthoredStep.compileAll 0 workflow.steps = .ok steps ∧
        program = ⟨workflow.name, workflow.description, workflow.inputs, workflow.constants,
          workflow.extractions, workflow.outputs, steps⟩ := by
  simp only [Workflow.assemble, bind_ok_iff]
  refine exists_congr fun steps => and_congr_right fun _ => ?_
  exact ⟨fun same => by cases same; rfl, fun same => by cases same; rfl⟩

theorem compile_ok_iff (document : Json) (program : Program) :
    compile document = .ok program ↔
      Authoring.check document = [] ∧
        ∃ workflow, Workflow.decode (.given document) = .ok workflow ∧
          workflow.assemble = .ok program := by
  unfold compile
  cases Authoring.check document with
  | nil => cases Workflow.decode (.given document) <;> simp
  | cons violation others => simp

def Program.Numbered (program : Program) : Prop :=
  ∀ (position : Nat) (step : Step), program.steps[position]? = some step → step.index = position

theorem compile_numbered (document : Json) (program : Program)
    (compiled : compile document = .ok program) : program.Numbered := by
  obtain ⟨_, workflow, _, assembled⟩ := (compile_ok_iff document program).mp compiled
  obtain ⟨steps, stepsCompiled, rfl⟩ := (assemble_ok_iff workflow program).mp assembled
  intro position step there
  simpa using AuthoredStep.compile_all_indices 0 workflow.steps steps stepsCompiled position step there

theorem compile_actions (document : Json) (program : Program)
    (compiled : compile document = .ok program) :
    ∀ step ∈ program.steps, step.operation.action = step.action := by
  obtain ⟨_, workflow, _, assembled⟩ := (compile_ok_iff document program).mp compiled
  obtain ⟨steps, stepsCompiled, rfl⟩ := (assemble_ok_iff workflow program).mp assembled
  exact AuthoredStep.compile_all_actions 0 workflow.steps steps stepsCompiled

def signIn : Json :=
  object [("name", string "sign-in"),
    ("steps", array [
      object [("name", string "Open"), ("action", string "navigate"),
        ("url", string "https://example.test/")],
      object [("name", string "Enter"), ("action", string "fill"), ("selector", string "#user"),
        ("value", string "$\x7binput.user\x7d"),
        ("when", object [("field", string "input.user"), ("op", string "!="),
          ("value", string "")])],
      object [("name", string "Send"), ("action", string "click"), ("selector", string "#send")]])]

def signInProgram : Program where
  name := "sign-in"
  description := none
  inputs := []
  constants := []
  extractions := []
  outputs := []
  steps := [
    ⟨0, "Open", .navigate, none, none, none, none, .navigate "https://example.test/"⟩,
    ⟨1, "Enter", .fill, some "#user", none, none,
      some (.compare ⟨.input, ["user"]⟩ .notEqual (string "")),
      .fill "#user" (.lookup ⟨.input, ["user"]⟩)⟩,
    ⟨2, "Send", .click, some "#send", none, none, none, .click "#send"⟩]

theorem sign_in_compiles : compile signIn = .ok signInProgram := by rfl

end BrowserFlow
