import BrowserFlow.Authoring.Check
import BrowserFlow.Program
/-! Compiling workflows. A document is checked first; a checked document is decoded and its steps are
compiled in order, and the first step that fails fails the document. -/
set_option autoImplicit false

namespace BrowserFlow

open Json

inductive CompileError where
  | invalid (violations : List Authoring.Violation)
  | unknownAction (step : String) (action : String)
  | condition (step : String) (fault : Condition.Fault)
  | missingField (step : String) (action : Action) (field : String)
  | undecodable (error : DecodeError)
deriving Repr

def CompileError.message : CompileError → String
  | invalid violations =>
    "workflow failed schema validation with " ++ Text.ofNat violations.length ++ " error(s)"
  | unknownAction step action =>
    "Step \"" ++ step ++ "\": unknown action type \"" ++ action ++ "\". Valid actions are: " ++
      Text.joinWith ", " Action.names
  | condition step fault => "Step \"" ++ step ++ "\": " ++ fault.message
  | missingField step action field =>
    "Step \"" ++ step ++ "\": action '" ++ action.name ++ "' requires a text '" ++ field ++
      "' field"
  | undecodable error => "workflow document could not be decoded: " ++ error.message

namespace AuthoredStep

def defaultTimeout : Nat := 30000

def requireField {α : Type} (step : AuthoredStep) (action : Action) (field : String) :
    Option α → Except CompileError α
  | some value => .ok value
  | none => .error (.missingField step.name action field)

def operation (step : AuthoredStep) (action : Action) : Except CompileError Operation :=
  match action with
  | .navigate => do
    let url ← step.requireField action "url" step.url
    return .navigate url
  | .fill => do
    let selector ← step.requireField action "selector" step.selector
    let value ← step.requireField action "value" step.value
    return .fill selector (.ofValue value)
  | .click => do
    let selector ← step.requireField action "selector" step.selector
    return .click selector
  | .press => do
    let selector ← step.requireField action "selector" step.selector
    let key ← step.requireField action "key" step.key
    return .press selector key
  | .type => do
    let value ← step.requireField action "value" step.value
    return .type (.ofValue value)
  | .select => do
    let selector ← step.requireField action "selector" step.selector
    let value ← step.requireField action "value" step.value
    return .select selector (.ofValue value)
  | .fileUpload => do
    let selector ← step.requireField action "selector" step.selector
    let file ← step.requireField action "file" step.file
    return .fileUpload selector (.ofText file)
  | .wait => do
    let selector ← step.requireField action "selector" step.selector
    return .wait selector (step.timeout.getD defaultTimeout)
  | .rawCode => do
    let code ← step.requireField action "code" step.code
    return .rawCode code

def compileGuard (step : AuthoredStep) : Except CompileError (Option Guard) :=
  match step.guard with
  | none => .ok none
  | some condition =>
    match Condition.compile condition with
    | .ok guard => .ok (some guard)
    | .error fault => .error (.condition step.name fault)

def compile (index : Nat) (step : AuthoredStep) : Except CompileError Step :=
  match Action.ofName? step.action with
  | none => .error (.unknownAction step.name step.action)
  | some action => do
    let guard ← step.compileGuard
    let operation ← step.operation action
    return {
      index, name := step.name, action, selector := step.selector, hint := step.hint,
      outputKey := step.output, guard, operation }

def compileAll (index : Nat) : List AuthoredStep → Except CompileError (List Step)
  | [] => .ok []
  | step :: rest => do
    let first ← compile index step
    let others ← compileAll (index + 1) rest
    return first :: others

end AuthoredStep

def Workflow.assemble (workflow : Workflow) : Except CompileError Program := do
  let steps ← AuthoredStep.compileAll 0 workflow.steps
  return {
    name := workflow.name, description := workflow.description, inputs := workflow.inputs,
    constants := workflow.constants, extractions := workflow.extractions,
    outputs := workflow.outputs, steps }

def compile (document : Json) : Except CompileError Program :=
  match Authoring.check document with
  | [] =>
    match Workflow.decode (.given document) with
    | .ok workflow => workflow.assemble
    | .error error => .error (.undecodable error)
  | violations => .error (.invalid violations)

def Workflow.compile (workflow : Workflow) : Except CompileError Program :=
  BrowserFlow.compile workflow.encode

end BrowserFlow
