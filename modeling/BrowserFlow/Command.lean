/-! What an operator can ask for on the command line. -/
set_option autoImplicit false

namespace BrowserFlow

structure RunRequest where
  workflow : String
  inputPath : Option String
  batchPath : Option String
  extract : Option String
  inputs : List String
  maxRetries : Option Nat
  start : Nat
  chargeCode : Option String
  retryDelay : Option Nat
  stepDeadline : Option Nat
  headless : Bool
  dryRun : Bool
deriving DecidableEq, Repr

inductive Command where
  | list
  | describe (workflow : String)
  | validate (workflow : String)
  | compile (workflow : String) (output : Option String) (listing : Bool)
  | run (request : RunRequest)
deriving DecidableEq, Repr

structure Invocation where
  workflowsDirectory : Option String
  programsDirectory : Option String
  command : Command
deriving DecidableEq, Repr

inductive Refusal where
  | help
  | version
  | misuse
deriving DecidableEq, Repr

end BrowserFlow
