import BrowserFlow.Command
import BrowserFlow.Entries
import BrowserFlow.Number.Decimal
/-! Reading command lines. Options and positional arguments may stand in any order, and everything after a
lone `--` is positional. Arguments are taken from left to right, and the first one that is not understood,
or that asks for help, decides. -/
set_option autoImplicit false

namespace BrowserFlow.Arguments

open Number

inductive Arity where
  | flag
  | single
  | repeated
deriving DecidableEq, Repr

structure OptionRule where
  name : String
  arity : Arity
  accepts : String → Bool

structure Grammar where
  options : List OptionRule
  positionals : List (String → Bool)
  hasCommands : Bool

structure Given where
  options : List (String × String)
  positionals : List String
deriving DecidableEq, Repr

inductive Form where
  | plain (text : String)
  | long (name : String) (value : Option String)
  | short (letters : List Char)
  | escape
deriving DecidableEq, Repr

def Form.ofText (text : String) : Form :=
  match text.toList with
  | ['-', '-'] => escape
  | '-' :: '-' :: rest =>
    match rest.dropWhile (· ≠ '=') with
    | [] => long (String.ofList rest) none
    | _ :: value => long (String.ofList (rest.takeWhile (· ≠ '='))) (some (String.ofList value))
  | '-' :: c :: rest => short (c :: rest)
  | _ => plain text

namespace Given

def nothing : Given := ⟨[], []⟩

def has (name : String) (given : Given) : Bool :=
  given.options.any fun entry => entry.1 == name

def value? (name : String) (given : Given) : Option String :=
  given.options.lookup name

def values (name : String) (given : Given) : List String :=
  (given.options.filter fun entry => entry.1 == name).map Prod.snd

def number? (read : List Char → Option Nat) (name : String) (given : Given) : Option Nat :=
  (given.value? name).bind fun text => read text.toList

def addOption (rule : OptionRule) (value : String) (given : Given) : Except Refusal Given :=
  if (rule.arity != .repeated && given.has rule.name) || !rule.accepts value then .error .misuse
  else .ok { given with options := given.options ++ [(rule.name, value)] }

def addPositional (grammar : Grammar) (value : String) (given : Given) : Except Refusal Given :=
  match grammar.positionals[given.positionals.length]? with
  | none => .error .misuse
  | some accepts =>
    if accepts value then .ok { given with positionals := given.positionals ++ [value] }
    else .error .misuse

def addPositionals (grammar : Grammar) : List String → Given → Except Refusal Given
  | [], given => .ok given
  | text :: rest, given =>
    match given.addPositional grammar text with
    | .ok given => addPositionals grammar rest given
    | .error refusal => .error refusal

end Given

namespace Grammar

def refuseShort (grammar : Grammar) : List Char → Refusal
  | 'h' :: _ => .help
  | 'V' :: _ => if grammar.hasCommands then .version else .misuse
  | _ => .misuse

def refuseLong (grammar : Grammar) (name : String) : Refusal :=
  if name == "help" then .help
  else if name == "version" && grammar.hasCommands then .version
  else .misuse

-- An option with its value, and the arguments after both. An option that takes a value and comes
-- without one takes the next argument, which must be plain.
def takeLong (grammar : Grammar) (name : String) (value : Option String) (rest : List String) :
    Except Refusal (OptionRule × String × List String) :=
  match grammar.options.find? fun rule => rule.name == name with
  | none => .error (if value.isNone then grammar.refuseLong name else .misuse)
  | some rule =>
    match rule.arity, value, rest with
    | .flag, none, rest => .ok (rule, "", rest)
    | .flag, some _, _ => .error .misuse
    | _, some value, rest => .ok (rule, value, rest)
    | _, none, [] => .error .misuse
    | _, none, next :: rest =>
      match Form.ofText next with
      | .plain value => .ok (rule, value, rest)
      | _ => .error .misuse

-- Reads arguments up to the name of a command, which starts the arguments left over. `fuel` is
-- more than the number of arguments.
def read (grammar : Grammar) : Nat → List String → Given → Except Refusal (Given × List String)
  | 0, _, _ => .error .misuse
  | _, [], given => .ok (given, [])
  | fuel + 1, text :: rest, given =>
    match Form.ofText text with
    | .escape => (given.addPositionals grammar rest).map fun given => (given, [])
    | .short letters => .error (grammar.refuseShort letters)
    | .plain text =>
      if grammar.hasCommands then .ok (given, text :: rest)
      else
        match given.addPositional grammar text with
        | .ok given => grammar.read fuel rest given
        | .error refusal => .error refusal
    | .long name value =>
      match grammar.takeLong name value rest with
      | .error refusal => .error refusal
      | .ok (rule, value, rest) =>
        match given.addOption rule value with
        | .ok given => grammar.read fuel rest given
        | .error refusal => .error refusal

end Grammar

def anyText (_ : String) : Bool :=
  true

def nonempty (text : String) : Bool :=
  !text.isEmpty

def readRetries? (chars : List Char) : Option Nat :=
  ((readSigned? chars).filter fun value : Int => 0 ≤ value && value < twoTo 32).map Int.toNat

def isRead (read : List Char → Option Nat) (text : String) : Bool :=
  (read text.toList).isSome

def directoryOptions : List OptionRule :=
  [⟨"workflows-dir", .single, nonempty⟩, ⟨"programs-dir", .single, nonempty⟩]

def programGrammar : Grammar := ⟨directoryOptions, [], true⟩

def listGrammar : Grammar := ⟨directoryOptions, [], false⟩

def workflowGrammar : Grammar := ⟨directoryOptions, [anyText], false⟩

def compileGrammar : Grammar where
  options := directoryOptions ++ [⟨"output", .single, nonempty⟩, ⟨"listing", .flag, anyText⟩]
  positionals := [anyText]
  hasCommands := false

def runGrammar : Grammar where
  options := directoryOptions ++
    [⟨"extract-csv", .single, nonempty⟩, ⟨"extract", .single, anyText⟩,
      ⟨"input", .repeated, anyText⟩, ⟨"max-retries", .single, isRead readRetries?⟩,
      ⟨"start-from", .single, isRead readPosition?⟩, ⟨"charge-code", .single, anyText⟩,
      ⟨"retry-delay-ms", .single, isRead readPosition?⟩,
      ⟨"step-deadline-ms", .single, isRead readPosition?⟩, ⟨"headless", .flag, anyText⟩,
      ⟨"dry-run", .flag, anyText⟩]
  positionals := [anyText, nonempty]
  hasCommands := false

def runRequest (workflow : String) (inputPath : Option String) (given : Given) : RunRequest where
  workflow := workflow
  inputPath := inputPath
  batchPath := given.value? "extract-csv"
  extract := given.value? "extract"
  inputs := given.values "input"
  maxRetries := given.number? readRetries? "max-retries"
  start := (given.number? readPosition? "start-from").getD 0
  chargeCode := given.value? "charge-code"
  retryDelay := given.number? readPosition? "retry-delay-ms"
  stepDeadline := given.number? readPosition? "step-deadline-ms"
  headless := given.has "headless"
  dryRun := given.has "dry-run"

def commands : List (String × Grammar × (Given → Option Command)) :=
  [("list", listGrammar, fun _ => some .list),
    ("describe", workflowGrammar, fun given => given.positionals.head?.map .describe),
    ("validate", workflowGrammar, fun given => given.positionals.head?.map .validate),
    ("compile", compileGrammar, fun given =>
      given.positionals.head?.map fun workflow =>
        .compile workflow (given.value? "output") (given.has "listing")),
    ("run", runGrammar, fun given =>
      given.positionals.head?.map fun workflow =>
        .run (runRequest workflow given.positionals[1]? given))]

def helpOn : List String → Refusal
  | [] => .help
  | [name] => if name == "help" || Entries.contains name commands then .help else .misuse
  | _ => .misuse

-- The command that stands behind the options for all commands. An option for all commands that is
-- given again after the command's name counts there.
def readCommand (before : Given) : List String → Except Refusal Invocation
  | [] => .error .misuse
  | name :: arguments =>
    if name == "help" then .error (helpOn arguments)
    else
      match Entries.find? name commands with
      | none => .error .misuse
      | some (grammar, command?) =>
        match grammar.read (arguments.length + 1) arguments .nothing with
        | .error refusal => .error refusal
        | .ok (given, _) =>
          match command? given with
          | none => .error .misuse
          | some command =>
            .ok {
              workflowsDirectory :=
                (given.value? "workflows-dir").or (before.value? "workflows-dir")
              programsDirectory :=
                (given.value? "programs-dir").or (before.value? "programs-dir")
              command }

def read (arguments : List String) : Except Refusal Invocation :=
  match programGrammar.read (arguments.length + 1) arguments .nothing with
  | .ok (given, rest) => readCommand given rest
  | .error refusal => .error refusal

end BrowserFlow.Arguments
