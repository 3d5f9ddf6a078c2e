import BrowserFlow.Program
import BrowserFlow.Run.Driver
/-! Running programs. Steps are performed in order from the context's start; a step whose guard does not
hold is passed over, and the first step that fails ends the run. -/
set_option autoImplicit false

namespace BrowserFlow

open Json

inductive StepError where
  | driver (error : DriverError)
  | undefined (reference : Reference)
  | deadline (milliseconds : Nat)
  | notFiles (found : Json)
deriving Repr, BEq

def StepError.message : StepError → String
  | driver error => error.message
  | undefined reference => reference.text ++ " is not defined"
  | deadline milliseconds =>
    "step did not finish within " ++ Text.ofNat milliseconds ++ " ms"
  | notFiles found => "file_upload needs a path or a list of paths, got " ++ found.compact

structure CompletedStep where
  index : Nat
  name : String
deriving DecidableEq, Repr

structure FailedStep where
  index : Nat
  name : String
  selector : Option String
  hint : Option String
  error : StepError
deriving Repr, BEq

structure Report where
  completed : List CompletedStep
  failed : Option FailedStep
  output : Entries Json
deriving Repr, BEq

namespace Report

def empty : Report := ⟨[], none, []⟩

def success (report : Report) : Bool :=
  report.failed.isNone

def resumeIndex (report : Report) : Option Nat :=
  report.failed.map FailedStep.index

def complete (report : Report) (step : Step) (produced : Option Json) : Report :=
  { report with
    completed := report.completed ++ [⟨step.index, step.name⟩]
    output :=
      match step.outputKey, produced with
      | some key, some value => report.output.insert key value
      | _, _ => report.output }

def fail (report : Report) (step : Step) (error : StepError) : Report :=
  { report with failed := some ⟨step.index, step.name, step.selector, step.hint, error⟩ }

def encodeCompleted (step : CompletedStep) : Json :=
  object [("index", natural step.index), ("name", string step.name), ("success", bool true)]

def encodeFailed (step : FailedStep) : Json :=
  object [("index", natural step.index), ("name", string step.name),
    ("selector", ofText? step.selector), ("hint", ofText? step.hint),
    ("error", string step.error.message)]

def encode (report : Report) : Json :=
  object [("success", bool report.success),
    ("completedSteps", array (report.completed.map encodeCompleted)),
    ("failedStep", (report.failed.map encodeFailed).getD null),
    ("output", object report.output)]

end Report

namespace Expression

def value (context : Context) (expression : Expression) : Except StepError Json :=
  match expression.evaluate context with
  | .ok value => .ok value
  | .error reference => .error (.undefined reference)

end Expression

namespace Operation

def calls (context : Context) : Operation → Except StepError (List Call)
  | navigate url => .ok [.navigate url, .waitForLoad]
  | fill selector value => do
    let value ← value.value context
    return [.fill selector value]
  | click selector => .ok [.click selector]
  | press selector key => .ok [.press selector key]
  | type value => do
    let value ← value.value context
    return [.typeText value]
  | select selector value => do
    let value ← value.value context
    return [.selectOption selector value]
  | fileUpload selector files => do
    let files ← files.value context
    match filePaths files with
    | .ok _ => return [.setFiles selector files]
    | .error _ => .error (.notFiles files)
  | wait selector timeout => .ok [.waitForSelector selector timeout]
  | rawCode code => .ok [.runScript code]

end Operation

namespace Driver

variable {State : Type}

-- Performs the calls of a step one after the other until one fails. A call that would finish after
-- the deadline is given up. The value is that of a script.
def performAll (driver : Driver State) (deadline : Option Nat) (elapsed : Nat) :
    List Call → State → Except StepError (Option Json) × State
  | [], state => (.ok none, state)
  | call :: rest, state =>
    let finished := elapsed + driver.delay
    match deadline.filter (· < finished) with
    | some deadline => (.error (.deadline deadline), state)
    | none =>
      match driver.perform call state with
      | (.error error, after) => (.error (.driver error), after)
      | (.ok produced, after) =>
        match performAll driver deadline finished rest after with
        | (.ok later, after) => (.ok (if call.isScript then produced else later), after)
        | failed => failed

def performStep (driver : Driver State) (deadline : Option Nat) (context : Context) (step : Step)
    (state : State) : Except StepError (Option Json) × State :=
  match step.operation.calls context with
  | .ok calls => driver.performAll deadline 0 calls state
  | .error error => (.error error, state)

def runSteps (driver : Driver State) (deadline : Option Nat) (context : Context) :
    List Step → Report → State → Report × State
  | [], report, state => (report, state)
  | step :: rest, report, state =>
    if step.isDue context then
      match driver.performStep deadline context step state with
      | (.ok produced, after) =>
        runSteps driver deadline context rest (report.complete step produced) after
      | (.error error, after) => (report.fail step error, after)
    else runSteps driver deadline context rest report state

end Driver

structure StartError where
  start : Nat
  length : Nat
deriving DecidableEq, Repr

def StartError.message (error : StartError) : String :=
  "startFromStep " ++ Text.ofNat error.start ++ " is out of range for a program with " ++
    Text.ofNat error.length ++ " step(s)"

namespace Driver

variable {State : Type}

def run (driver : Driver State) (deadline : Option Nat) (program : Program) (context : Context)
    (state : State) : Except StartError (Report × State) :=
  if program.steps.length < context.start then
    .error ⟨context.start, program.steps.length⟩
  else
    .ok (driver.runSteps deadline context (program.steps.drop context.start) .empty state)

def runWithRetries (driver : Driver State) (deadline : Option Nat) (program : Program)
    (context : Context) : Nat → State → Except StartError (Report × State)
  | 0, state => driver.run deadline program context state
  | retries + 1, state =>
    match driver.run deadline program context state with
    | .error error => .error error
    | .ok (report, after) =>
      if report.success then .ok (report, after)
      else runWithRetries driver deadline program context retries after

end Driver

end BrowserFlow
