import BrowserFlow.Files.Documents
/-! Contexts from what an operator gives: an input file, input texts, a batch record, a charge code,
extracted fields, and constants of the settings. Later sources go over earlier ones. -/
set_option autoImplicit false

namespace BrowserFlow

open Json

structure Sources where
  inputPath : Option String
  inputs : List String
  chargeCode : Option String
  extract : Option String
  start : Nat
  constants : Entries Json
deriving Repr, BEq

namespace Sources

def addConstants (constants : Entries Json) (context : Context) : Context :=
  constants.foldl
    (fun context entry =>
      if Entries.contains entry.1 context.constants then context
      else context.set .constants entry.1 entry.2)
    context

-- Takes the input file in: a document gives input values, any other file is the value of the first
-- input that accepts files.
def addInputFile (tree : FileTree) (program : Program) (path : String) (context : Context) :
    Except Failure Context :=
  if Path.isDocument path then
    match tree.loadDocument path with
    | .error failure => .error failure
    | .ok (object entries) => .ok { context with input := context.input.extend entries }
    | .ok _ => .error (.inputNotMapping path)
  else
    match List.find? (fun entry => entry.2.acceptsFile) program.inputs with
    | some (name, _) => .ok (context.set .input name (string path))
    | none => .error (.noFileInput program.name path)

-- Takes a cell of a record in. Cells of declared inputs are input values, an empty one giving way
-- to the default; all others are extracted fields.
def addCell (program : Program) (column cell : String) (context : Context) :
    Except Failure Context :=
  match Entries.find? column program.inputs with
  | some parameter =>
    if cell.isEmpty then .ok context
    else
      match parameter.kind.coerce cell with
      | .ok value => .ok (context.set .input column value)
      | .error cause => .error (.batchField column cause)
  | none => .ok (context.set .extract column (string cell))

def addAll {α : Type} (add : α → Context → Except Failure Context) :
    List α → Context → Except Failure Context
  | [], context => .ok context
  | first :: rest, context =>
    match add first context with
    | .ok context => addAll add rest context
    | .error failure => .error failure

def splitPair? (pair : String) : Option (String × String) :=
  match pair.toList.dropWhile (· ≠ '=') with
  | [] => none
  | _ :: value =>
    some (String.ofList (pair.toList.takeWhile (· ≠ '=')), String.ofList value)

def addPair (program : Program) (pair : String) (context : Context) : Except Failure Context :=
  match splitPair? pair with
  | none => .error (.malformedInput pair)
  | some (key, raw) =>
    let key := Text.trim key
    match coerceInput (Entries.find? key program.inputs) raw with
    | .ok value => .ok (context.set .input key value)
    | .error cause => .error (.input key cause)

def addChargeCode (code : Option String) (context : Context) : Context :=
  match code with
  | some code => context.set .input "charge_code" (string code)
  | none => context

def addExtract (text : Option String) (context : Context) : Except Failure Context :=
  match text with
  | none => .ok context
  | some text =>
    match Json.read text with
    | .error cause => .error (.malformedExtract text cause)
    | .ok (object entries) => .ok { context with extract := context.extract.extend entries }
    | .ok _ => .error .extractNotObject

def checkInputs (context : Context) : Entries Parameter → Except Failure Context
  | [] => .ok context
  | (name, parameter) :: rest =>
    match Entries.find? name context.input with
    | none => checkInputs context rest
    | some value =>
      match parameter.check value with
      | .ok () => checkInputs context rest
      | .error cause => .error (.input name cause)

def finish (program : Program) (context : Context) : Except Failure Context :=
  let context := context.applyDefaults program.inputs
  match context.missingInputs program.inputs with
  | [] => checkInputs context program.inputs
  | names => .error (.missingInputs names)

def context (tree : FileTree) (program : Program) (sources : Sources)
    (record : Option Batch.Record) : Except Failure Context := do
  let context := addConstants sources.constants { program.context with start := sources.start }
  let context ←
    match sources.inputPath with
    | some path => addInputFile tree program path context
    | none => .ok context
  let context ←
    match record with
    | some record => addAll (fun cell => addCell program cell.1 cell.2) record context
    | none => .ok context
  let context ← addAll (addPair program) sources.inputs context
  let context ← addExtract sources.extract (addChargeCode sources.chargeCode context)
  finish program context

end Sources

structure Policy where
  maxRetries : Nat
  deadline : Option Nat
deriving DecidableEq, Repr

namespace Driver

variable {State : Type}

def runUnder (driver : Driver State) (policy : Policy) (program : Program) (context : Context)
    (state : State) : Except Failure Report × State :=
  match driver.runWithRetries policy.deadline program context policy.maxRetries state with
  | .ok (report, after) => (.ok report, after)
  | .error error => (.error (.start error), state)

def runRecord (driver : Driver State) (policy : Policy) (tree : FileTree) (program : Program)
    (sources : Sources) (record : Batch.Record) (state : State) :
    Except Failure Report × State :=
  match sources.context tree program (some record) with
  | .ok context => driver.runUnder policy program context state
  | .error failure => (.error failure, state)

def runBatch (driver : Driver State) (policy : Policy) (tree : FileTree) (program : Program)
    (sources : Sources) : List Batch.Record → State → List (Except Failure Report) × State
  | [], state => ([], state)
  | record :: rest, state =>
    let (outcome, after) := driver.runRecord policy tree program sources record state
    let (outcomes, last) := runBatch driver policy tree program sources rest after
    (outcome :: outcomes, last)

end Driver

end BrowserFlow
