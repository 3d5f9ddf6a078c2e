import BrowserFlow.Command.Arguments
import BrowserFlow.Description
import BrowserFlow.Run.Recorder
import BrowserFlow.Settings
import BrowserFlow.Sources
/-! What commands answer: an exit code and the texts for the two outputs, and the tree of files that a
command leaves. -/
set_option autoImplicit false

namespace BrowserFlow

open Json

structure Answer where
  code : Nat
  output : String
  errors : String
deriving DecidableEq, Repr

namespace Answer

def exitCode (success : Bool) : Nat :=
  if success then 0 else 1

def ofOutput (success : Bool) (output : String) : Answer :=
  ⟨exitCode success, output, ""⟩

def ofFailure (failure : Failure) : Answer :=
  ⟨1, "", textLine ("Error: " ++ failure.report)⟩

def ofViolations (violations : List Authoring.Violation) : Answer :=
  ofOutput false (violationReport violations)

def failedStep (step : FailedStep) : String :=
  let index := Text.ofNat step.index
  textLine ("Step " ++ index ++ " (" ++ step.name ++ ") failed: " ++ step.error.message ++
    ". Resume with --start-from " ++ index) ++
  (match step.hint with
    | some hint => textLine ("Hint: " ++ hint)
    | none => "")

def ofReport (report : Report) : Answer :=
  ⟨exitCode report.success, textLine report.encode.pretty,
    (report.failed.map failedStep).getD ""⟩

def ofOutcome (number : Nat) : Except Failure Report → Answer
  | .ok report => ofReport report
  | .error failure =>
    ⟨1, "", textLine ("Record " ++ Text.ofNat number ++ ": " ++ failure.report)⟩

def ofOutcomesFrom (number : Nat) : List (Except Failure Report) → List Answer
  | [] => []
  | outcome :: rest => ofOutcome number outcome :: ofOutcomesFrom (number + 1) rest

def ofOutcomes (outcomes : List (Except Failure Report)) : Answer :=
  let answers := ofOutcomesFrom 1 outcomes
  let succeeded := answers.countP fun answer => answer.code == 0
  let summary := Text.ofNat succeeded ++ " of " ++ Text.ofNat answers.length ++
    " record(s) succeeded"
  ⟨exitCode (succeeded == answers.length),
    String.join (answers.map Answer.output) ++ textLine summary,
    String.join (answers.map Answer.errors)⟩

def withCalls (calls : List Call) (answer : Answer) : Answer :=
  { answer with
    output := answer.output ++ String.join (calls.map fun call => textLine call.encode.compact) }

end Answer

namespace RunRequest

def sources (settings : Settings) (request : RunRequest) : Sources where
  inputPath := request.inputPath
  inputs := request.inputs
  chargeCode := request.chargeCode
  extract := request.extract
  start := request.start
  constants := settings.constants

def policy (settings : Settings) (request : RunRequest) : Policy where
  maxRetries := request.maxRetries.getD settings.maxRetries
  deadline := request.stepDeadline.or settings.stepDeadline

def records (tree : FileTree) (request : RunRequest) :
    Except Failure (Option (List Batch.Record)) :=
  match request.batchPath with
  | none => .ok none
  | some path => (tree.loadBatch path).map some

def rehearse (settings : Settings) (tree : FileTree) (request : RunRequest) (program : Program)
    (records : Option (List Batch.Record)) : Except Failure Answer :=
  let driver := recorder none 0
  let policy := request.policy settings
  let sources := request.sources settings
  match records with
  | some records =>
    let (outcomes, recording) := driver.runBatch policy tree program sources records default
    .ok ((Answer.ofOutcomes outcomes).withCalls recording.calls)
  | none =>
    match sources.context tree program none with
    | .error failure => .error failure
    | .ok context =>
      match driver.runUnder policy program context default with
      | (.error failure, _) => .error failure
      | (.ok report, recording) => .ok ((Answer.ofReport report).withCalls recording.calls)

-- Runs a compiled workflow. Only rehearsals can be run.
def answer (settings : Settings) (tree : FileTree) (request : RunRequest) :
    Except Failure Answer := do
  let program ← tree.loadCompiled settings.programsDirectory request.workflow
  let records ← request.records tree
  if request.dryRun then request.rehearse settings tree program records else .error .noBrowser

end RunRequest

namespace Command

def loadWorkflow (settings : Settings) (tree : FileTree) (identifier : String) :
    Except Failure (String × Json) := do
  let path ← tree.resolveWorkflow settings.workflowsDirectory identifier
  let document ← tree.loadDocument path
  return (path, document)

def answerDescribe (settings : Settings) (tree : FileTree) (identifier : String) :
    Except Failure Answer := do
  let (path, document) ← loadWorkflow settings tree identifier
  match Workflow.decode (.given document) with
  | .error cause => .error (.undecodableWorkflow path cause)
  | .ok workflow =>
    let program := programPath settings.programsDirectory workflow.name
    let compiledAt := if tree.isFile program then some program else none
    return .ofOutput true (workflow.describe compiledAt)

def answerValidate (settings : Settings) (tree : FileTree) (identifier : String) :
    Except Failure Answer := do
  let (path, document) ← loadWorkflow settings tree identifier
  match Authoring.check document with
  | [] => return .ofOutput true (textLine (path ++ " is valid"))
  | violations => return .ofViolations violations

def writeTo (settings : Settings) (tree : FileTree) (program : Program) :
    Option String → Except Failure (String × FileTree)
  | some path => (tree.writeProgram path program).map fun written => (path, written)
  | none => tree.saveProgram settings.programsDirectory program

def answerCompile (settings : Settings) (tree : FileTree) (identifier : String)
    (output : Option String) (listing : Bool) : Except Failure (Answer × FileTree) := do
  let (path, document) ← loadWorkflow settings tree identifier
  match BrowserFlow.compile document with
  | .error (.invalid violations) => return (.ofViolations violations, tree)
  | .error cause => .error (.uncompilableWorkflow path cause)
  | .ok program =>
    if listing then return (.ofOutput true program.listing, tree)
    else
      let (written, tree) ← writeTo settings tree program output
      let summary := "Compiled " ++ program.name ++ " (" ++ Text.ofNat program.steps.length ++
        " steps) -> " ++ written
      return (.ofOutput true (textLine summary), tree)

def answer (settings : Settings) (tree : FileTree) :
    Command → Except Failure (Answer × FileTree)
  | list =>
    let directory := settings.workflowsDirectory
    .ok (.ofOutput true
      (listing tree settings.programsDirectory (tree.discover directory)), tree)
  | describe workflow => (answerDescribe settings tree workflow).map fun answer => (answer, tree)
  | validate workflow => (answerValidate settings tree workflow).map fun answer => (answer, tree)
  | compile workflow output listing => answerCompile settings tree workflow output listing
  | run request => (request.answer settings tree).map fun answer => (answer, tree)

end Command

namespace Invocation

def adjust (invocation : Invocation) (settings : Settings) : Settings :=
  { settings with
    workflowsDirectory := invocation.workflowsDirectory.getD settings.workflowsDirectory
    programsDirectory := invocation.programsDirectory.getD settings.programsDirectory }

def answer (invocation : Invocation) (environment : Environment) (tree : FileTree) :
    Answer × FileTree :=
  match Settings.load environment.home tree environment.defaultSettingsPath with
  | .error cause => (.ofFailure (.settings cause), tree)
  | .ok settings =>
    match invocation.command.answer (invocation.adjust settings) tree with
    | .ok (answer, after) => (answer, after)
    | .error failure => (.ofFailure failure, tree)

end Invocation

def usage : String :=
  String.join (["Compile and run declarative browser workflows", "",
    "Usage: pagewright [OPTIONS] <COMMAND>", "", "Commands:", "  list", "  describe <WORKFLOW>",
    "  validate <WORKFLOW>", "  compile [OPTIONS] <WORKFLOW>",
    "  run [OPTIONS] <WORKFLOW> [INPUT_PATH]", "", "Options:",
    "      --workflows-dir <WORKFLOWS_DIR>", "      --programs-dir <PROGRAMS_DIR>",
    "  -h, --help", "  -V, --version"].map textLine)

def Refusal.answer : Refusal → Answer
  | help => .ofOutput true usage
  | version => .ofOutput true (textLine ("pagewright " ++ compilerVersion))
  | misuse => ⟨2, "", usage⟩

def answerArguments (environment : Environment) (tree : FileTree) (arguments : List String) :
    Answer × FileTree :=
  match Arguments.read arguments with
  | .ok invocation => invocation.answer environment tree
  | .error refusal => (refusal.answer, tree)

end BrowserFlow
