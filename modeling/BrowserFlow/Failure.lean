import BrowserFlow.Batch
import BrowserFlow.Files.FileTree
import BrowserFlow.Program.Artifact
import BrowserFlow.Program.Compile
import BrowserFlow.Run
import BrowserFlow.Workflow.InputText
import BrowserFlow.Yaml.Document
/-! Failures that an operator is told about, each with the causes that led to it. -/
set_option autoImplicit false

namespace BrowserFlow

inductive Failure where
  | unreadableWorkflow (path : String) (cause : FileError)
  | malformedWorkflow (path : String) (cause : Yaml.DocumentError)
  | undecodableWorkflow (path : String) (cause : Json.DecodeError)
  | uncompilableWorkflow (path : String) (cause : CompileError)
  | workflowNotFound (identifier : String) (tried : List String)
  | unreadableProgram (path : String) (cause : FileError)
  | invalidProgram (path : String) (text : String) (cause : ArtifactError)
  | notCompiled (name : String) (path : String) (identifier : String)
  | noDirectory (path : String) (cause : FileError)
  | unwritableProgram (path : String) (cause : FileError)
  | unreadableBatch (path : String) (cause : FileError)
  | invalidBatch (path : String) (cause : Batch.BatchError)
  | inputNotMapping (path : String)
  | noFileInput (workflow : String) (path : String)
  | batchField (column : String) (cause : InputError)
  | malformedInput (pair : String)
  | input (name : String) (cause : InputError)
  | malformedExtract (text : String) (cause : Json.SyntaxError)
  | extractNotObject
  | missingInputs (names : List String)
  | start (cause : StartError)
  | settings (cause : FileError)
  | noBrowser
deriving Repr

def ArtifactError.chain (text : String) (error : ArtifactError) : List String :=
  match error with
  | undecodable cause => [error.message, cause.messageIn text]
  | unsupported _ => [error.message]

namespace Failure

def chain : Failure → List String
  | unreadableWorkflow path cause => ["Failed to read workflow file: " ++ path, cause.message]
  | malformedWorkflow path cause => ["Failed to parse workflow file: " ++ path, cause.message]
  | undecodableWorkflow path cause =>
    ["Failed to decode workflow: " ++ path, cause.message]
  | uncompilableWorkflow path cause => ["Failed to compile " ++ path, cause.message]
  | workflowNotFound identifier tried =>
    ["workflow '" ++ identifier ++ "' not found (looked for " ++ Text.joinWith ", " tried ++ ")"]
  | unreadableProgram path cause =>
    ["Failed to read compiled program: " ++ path, cause.message]
  | invalidProgram path text cause =>
    ("Invalid compiled program: " ++ path) :: cause.chain text
  | notCompiled name path identifier =>
    ["no compiled program for '" ++ name ++ "' at " ++ path ++ "; run `pagewright compile " ++
      identifier ++ "` first"]
  | noDirectory path cause => ["Failed to create program directory: " ++ path, cause.message]
  | unwritableProgram path cause =>
    ["Failed to write compiled program: " ++ path, cause.message]
  | unreadableBatch path cause => ["Failed to read batch file: " ++ path, cause.message]
  | invalidBatch path cause => ["Invalid batch file: " ++ path, cause.message]
  | inputNotMapping path => ["input file " ++ path ++ " must contain a mapping of input values"]
  | noFileInput workflow path =>
    ["workflow '" ++ workflow ++ "' declares no file or image input for " ++ path]
  | batchField column cause => ["batch field '" ++ column ++ "': " ++ cause.message]
  | malformedInput pair => ["--input expects key=value, got '" ++ pair ++ "'"]
  | input name cause => ["input '" ++ name ++ "': " ++ cause.message]
  | malformedExtract text cause => ["--extract must be a JSON object", cause.message text]
  | extractNotObject => ["--extract must be a JSON object"]
  | missingInputs names => ["missing required input(s): " ++ Text.joinWith ", " names]
  | start cause => [cause.message]
  | settings cause => ["settings I/O error: " ++ cause.message, cause.message]
  | noBrowser =>
    ["this build has no browser support; rebuild with the `chrome` feature or pass --dry-run"]

def message (failure : Failure) : String :=
  failure.chain.headD ""

def report (failure : Failure) : String :=
  Text.joinWith ": " failure.chain

end Failure

end BrowserFlow
