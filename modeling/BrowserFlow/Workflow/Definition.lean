import BrowserFlow.Json.Decoding
import BrowserFlow.Text.Blank
/-! Authored workflows: their declarations and their steps, decoded from a document and encoded again. -/
set_option autoImplicit false

namespace BrowserFlow

open Json

structure Parameter where
  type : Option String
  required : Bool
  default : Option Json
  description : Option String
  sample : Option Json
deriving Repr, Inhabited, BEq

structure Extraction where
  field : String
  prompt : String
  type : Option String
deriving Repr, Inhabited, BEq, DecidableEq

structure Output where
  description : Option String
deriving Repr, Inhabited, BEq, DecidableEq

structure AuthoredStep where
  name : String
  action : String
  selector : Option String
  url : Option String
  value : Option Json
  key : Option String
  file : Option String
  timeout : Option Nat
  code : Option String
  hint : Option String
  guard : Option Json
  output : Option String
  description : Option String
deriving Repr, Inhabited, BEq

structure Workflow where
  name : String
  description : Option String
  inputs : Entries Parameter
  constants : Entries Json
  extractions : List Extraction
  outputs : Entries Output
  steps : List AuthoredStep
deriving Repr, Inhabited, BEq

namespace Parameter

def fieldNames : List String :=
  ["type", "required", "default", "description", "example"]

def fields : Fields Parameter :=
  Parameter.mk <$> optional "type" decodeText <*> defaulted "required" false decodeFlag <*>
    optional "default" decodeAny <*> optional "description" decodeText <*>
    optional "example" decodeAny

def decode : Decoder Parameter :=
  record "struct InputParameter" fieldNames fields

def encode (parameter : Parameter) : Json :=
  object <|
    present "type" (parameter.type.map string) ++
    [("required", bool parameter.required)] ++
    present "default" parameter.default ++
    present "description" (parameter.description.map string) ++
    present "example" parameter.sample

def acceptsFile (parameter : Parameter) : Bool :=
  match parameter.type with
  | some type =>
    let lowered := (Text.lower type).toList
    Text.contains "file".toList lowered || Text.contains "image".toList lowered
  | none => false

end Parameter

namespace Extraction

def fields : Fields Extraction :=
  Extraction.mk <$> required "field" decodeText <*> required "prompt" decodeText <*>
    optional "type" decodeText

def decode : Decoder Extraction :=
  record "struct ExtractField" ["field", "prompt", "type"] fields

def encode (extraction : Extraction) : Json :=
  object <|
    [("field", string extraction.field), ("prompt", string extraction.prompt)] ++
    present "type" (extraction.type.map string)

def summary (extraction : Extraction) : String :=
  match Text.lines extraction.prompt with
  | [] => ""
  | line :: _ => Text.trim line

end Extraction

namespace Output

def fields : Fields Output :=
  Output.mk <$> optional "description" decodeText

def decode : Decoder Output :=
  record "struct OutputField" ["description"] fields

def encode (output : Output) : Json :=
  object (present "description" (output.description.map string))

end Output

namespace AuthoredStep

def fieldNames : List String :=
  ["name", "action", "selector", "url", "value", "key", "file", "timeout", "code", "hint", "when",
    "output", "description"]

def fields : Fields AuthoredStep :=
  AuthoredStep.mk <$> required "name" decodeText <*> required "action" decodeText <*>
    optional "selector" decodeText <*> optional "url" decodeText <*> optional "value" decodeAny <*>
    optional "key" decodeText <*> optional "file" decodeText <*> optional "timeout" decodeWord <*>
    optional "code" decodeText <*> optional "hint" decodeText <*> optional "when" decodeAny <*>
    optional "output" decodeText <*> optional "description" decodeText

def decode : Decoder AuthoredStep :=
  record "struct StepDefinition" fieldNames fields

def encode (step : AuthoredStep) : Json :=
  object <|
    [("name", string step.name), ("action", string step.action)] ++
    present "selector" (step.selector.map string) ++
    present "url" (step.url.map string) ++
    present "value" step.value ++
    present "key" (step.key.map string) ++
    present "file" (step.file.map string) ++
    present "timeout" (step.timeout.map natural) ++
    present "code" (step.code.map string) ++
    present "hint" (step.hint.map string) ++
    present "when" step.guard ++
    present "output" (step.output.map string) ++
    present "description" (step.description.map string)

end AuthoredStep

namespace Workflow

def fieldNames : List String :=
  ["name", "description", "input", "constants", "extract", "output", "steps"]

def fields : Fields Workflow :=
  Workflow.mk <$> required "name" decodeText <*> optional "description" decodeText <*>
    defaulted "input" [] (decodeTable Parameter.decode) <*>
    defaulted "constants" [] (decodeTable decodeAny) <*>
    defaulted "extract" [] (decodeList Extraction.decode) <*>
    defaulted "output" [] (decodeTable Output.decode) <*>
    defaulted "steps" [] (decodeList AuthoredStep.decode)

def decode : Decoder Workflow :=
  record "struct WorkflowDefinition" fieldNames fields

def encodeTable {α : Type} (encode : α → Json) (entries : Entries α) : Json :=
  object (entries.mapValues encode)

def encode (workflow : Workflow) : Json :=
  object <|
    [("name", string workflow.name)] ++
    present "description" (workflow.description.map string) ++
    [("input", encodeTable Parameter.encode workflow.inputs),
      ("constants", object workflow.constants),
      ("extract", array (workflow.extractions.map Extraction.encode)),
      ("output", encodeTable Output.encode workflow.outputs),
      ("steps", array (workflow.steps.map AuthoredStep.encode))]

end Workflow

end BrowserFlow
