import BrowserFlow.Number.Decimal
import BrowserFlow.Reference
import BrowserFlow.Workflow.Definition
/-! The values that a run can refer to, and the step it starts from. -/
set_option autoImplicit false

namespace BrowserFlow

open Json

structure Context where
  extract : Entries Json
  constants : Entries Json
  input : Entries Json
  start : Nat
deriving Repr, Inhabited, BEq

namespace Context

def empty : Context := ⟨[], [], [], 0⟩

def scope (context : Context) : Scope → Entries Json
  | .extract => context.extract
  | .input => context.input
  | .constants => context.constants

def set (context : Context) (scope : Scope) (key : String) (value : Json) : Context :=
  match scope with
  | .extract => { context with extract := context.extract.insert key value }
  | .input => { context with input := context.input.insert key value }
  | .constants => { context with constants := context.constants.insert key value }

def follow (value : Json) : List String → Option Json
  | [] => some value
  | segment :: rest =>
    match value with
    | object entries => (Entries.find? segment entries).bind fun inner => follow inner rest
    | array items =>
      (Number.readPosition? segment.toList).bind fun index =>
        items[index]?.bind fun inner => follow inner rest
    | _ => none

def lookup (context : Context) (reference : Reference) : Option Json :=
  match reference.path with
  | [] => none
  | first :: rest =>
    (Entries.find? first (context.scope reference.scope)).bind fun value => follow value rest

def applyDefault (context : Context) (name : String) (parameter : Parameter) : Context :=
  match parameter.default with
  | some value =>
    if Entries.contains name context.input then context else context.set .input name value
  | none => context

def applyDefaults (context : Context) (parameters : Entries Parameter) : Context :=
  parameters.foldl (fun context entry => context.applyDefault entry.1 entry.2) context

def provides (context : Context) (name : String) : Bool :=
  match Entries.find? name context.input with
  | some value => !value.isNull
  | none => false

def missingInputs (context : Context) (parameters : Entries Parameter) : List String :=
  (parameters.filter fun entry => entry.2.required && !context.provides entry.1).map Prod.fst

def fields : Fields Context :=
  Context.mk <$> defaulted "extract" [] (decodeTable decodeAny) <*>
    defaulted "constants" [] (decodeTable decodeAny) <*>
    defaulted "input" [] (decodeTable decodeAny) <*> defaulted "startFromStep" 0 decodeIndex

def decode : Decoder Context :=
  record "struct RuntimeContext" ["extract", "constants", "input", "startFromStep"] fields

def encode (context : Context) : Json :=
  object [("extract", object context.extract), ("constants", object context.constants),
    ("input", object context.input), ("startFromStep", natural context.start)]

end Context

end BrowserFlow
