import BrowserFlow.Action
import BrowserFlow.Guard
/-! Compiled programs: steps with their guards and operations, and the listing that shows them. -/
set_option autoImplicit false

namespace BrowserFlow

open Json

inductive Operation where
  | navigate (url : String)
  | fill (selector : String) (value : Expression)
  | click (selector : String)
  | press (selector : String) (key : String)
  | type (value : Expression)
  | select (selector : String) (value : Expression)
  | fileUpload (selector : String) (files : Expression)
  | wait (selector : String) (timeout : Nat)
  | rawCode (code : String)
deriving Repr, Inhabited, BEq

structure Step where
  index : Nat
  name : String
  action : Action
  selector : Option String
  hint : Option String
  outputKey : Option String
  guard : Option Guard
  operation : Operation
deriving Repr, Inhabited, BEq

structure Program where
  name : String
  description : Option String
  inputs : Entries Parameter
  constants : Entries Json
  extractions : List Extraction
  outputs : Entries Output
  steps : List Step
deriving Repr, Inhabited, BEq

namespace Operation

def action : Operation → Action
  | navigate _ => .navigate
  | fill _ _ => .fill
  | click _ => .click
  | press _ _ => .press
  | type _ => .type
  | select _ _ => .select
  | fileUpload _ _ => .fileUpload
  | wait _ _ => .wait
  | rawCode _ => .rawCode

def expression? : Operation → Option Expression
  | fill _ value => some value
  | type value => some value
  | select _ value => some value
  | fileUpload _ files => some files
  | _ => none

def shownText (text : String) : String :=
  literalText (string text)

def shownCall (method : String) (arguments : List String) : String :=
  method ++ "(" ++ Text.joinWith ", " arguments ++ ")"

def lines : Operation → List String
  | navigate url => [shownCall "navigate" [shownText url], shownCall "wait_for_load" []]
  | fill selector value => [shownCall "fill" [shownText selector, value.display]]
  | click selector => [shownCall "click" [shownText selector]]
  | press selector key => [shownCall "press" [shownText selector, shownText key]]
  | type value => [shownCall "type_text" [value.display]]
  | select selector value => [shownCall "select_option" [shownText selector, value.display]]
  | fileUpload selector files => [shownCall "set_files" [shownText selector, files.display]]
  | wait selector timeout =>
    [shownCall "wait_for_selector" [shownText selector, Text.ofNat timeout]]
  | rawCode code => Text.lines code

def encode (operation : Operation) : Json :=
  object <| ("kind", string operation.action.name) ::
    match operation with
    | navigate url => [("url", string url)]
    | fill selector value => [("selector", string selector), ("value", value.encode)]
    | click selector => [("selector", string selector)]
    | press selector key => [("selector", string selector), ("key", string key)]
    | type value => [("value", value.encode)]
    | select selector value => [("selector", string selector), ("value", value.encode)]
    | fileUpload selector files => [("selector", string selector), ("files", files.encode)]
    | wait selector timeout => [("selector", string selector), ("timeout_ms", natural timeout)]
    | rawCode code => [("code", string code)]

def fieldNames : Action → List String
  | .navigate => ["url"]
  | .fill => ["selector", "value"]
  | .click => ["selector"]
  | .press => ["selector", "key"]
  | .type => ["value"]
  | .select => ["selector", "value"]
  | .fileUpload => ["selector", "files"]
  | .wait => ["selector", "timeout_ms"]
  | .rawCode => ["code"]

def fields : Action → Fields Operation
  | .navigate => navigate <$> required "url" decodeText
  | .fill => fill <$> required "selector" decodeText <*> required "value" Expression.decode
  | .click => click <$> required "selector" decodeText
  | .press => press <$> required "selector" decodeText <*> required "key" decodeText
  | .type => type <$> required "value" Expression.decode
  | .select => select <$> required "selector" decodeText <*> required "value" Expression.decode
  | .fileUpload =>
    fileUpload <$> required "selector" decodeText <*> required "files" Expression.decode
  | .wait => wait <$> required "selector" decodeText <*> required "timeout_ms" decodeWord
  | .rawCode => rawCode <$> required "code" decodeText

def title : Action → String
  | .navigate => "Navigate"
  | .fill => "Fill"
  | .click => "Click"
  | .press => "Press"
  | .type => "Type"
  | .select => "Select"
  | .fileUpload => "FileUpload"
  | .wait => "Wait"
  | .rawCode => "RawCode"

def decodeFields (action : Action) : Decoder Operation :=
  record ("struct variant StepBody::" ++ title action) (fieldNames action) (fields action)

def decode : Decoder Operation :=
  decodeKinds "internally tagged enum StepBody"
    (Entries.mapValues decodeFields Action.named)

end Operation

namespace Step

def fields : Fields Step :=
  Step.mk <$> required "index" decodeIndex <*> required "name" decodeText <*>
    required "action" (decodeWordOf Action.named) <*> optional "selector" decodeText <*>
    optional "hint" decodeText <*> optional "outputKey" decodeText <*>
    optional "guard" Guard.decode <*> required "body" Operation.decode

def decode : Decoder Step :=
  record "struct CompiledStep"
    ["index", "name", "action", "selector", "hint", "outputKey", "guard", "body"] fields

def encode (step : Step) : Json :=
  object <|
    [("index", natural step.index), ("name", string step.name),
      ("action", string step.action.name)] ++
    present "selector" (step.selector.map string) ++
    present "hint" (step.hint.map string) ++
    present "outputKey" (step.outputKey.map string) ++
    present "guard" (step.guard.map Guard.encode) ++
    [("body", step.operation.encode)]

def isDue (context : Context) (step : Step) : Bool :=
  match step.guard with
  | some guard => guard.holds context
  | none => true

def references (step : Step) : List Reference :=
  (match step.guard with
    | some guard => guard.references
    | none => []) ++
  (match step.operation.expression? with
    | some value => value.references
    | none => [])

def line (text : String) : String :=
  text ++ "\n"

def listing (step : Step) : String :=
  let margin := if step.guard.isSome then "    " else ""
  let ending := if step.action == .rawCode then "" else ";"
  line "" ++
  line ("// [" ++ Text.ofNat step.index ++ "] " ++ step.name ++ " (" ++ step.action.name ++ ")") ++
  (match step.selector with
    | some selector => line ("//     selector: " ++ selector)
    | none => "") ++
  (match step.hint with
    | some hint => line ("//     hint: " ++ hint)
    | none => "") ++
  (match step.guard with
    | some guard => line ("if (" ++ guard.display ++ ") \x7b")
    | none => "") ++
  String.join (step.operation.lines.map fun call => line (margin ++ call ++ ending)) ++
  (match step.outputKey with
    | some key => line (margin ++ "// result stored as output." ++ key)
    | none => "") ++
  (if step.guard.isSome then line "\x7d" else "")

end Step

namespace Program

def fields : Fields Program :=
  Program.mk <$> required "name" decodeText <*> optional "description" decodeText <*>
    defaulted "inputs" [] (decodeTable Parameter.decode) <*>
    defaulted "constants" [] (decodeTable decodeAny) <*>
    defaulted "extract" [] (decodeList Extraction.decode) <*>
    defaulted "outputs" [] (decodeTable Output.decode) <*>
    required "steps" (decodeList Step.decode)

def decode : Decoder Program :=
  record "struct CompiledProgram"
    ["name", "description", "inputs", "constants", "extract", "outputs", "steps"] fields

def encode (program : Program) : Json :=
  object <|
    [("name", string program.name)] ++
    present "description" (program.description.map string) ++
    [("inputs", Workflow.encodeTable Parameter.encode program.inputs),
      ("constants", object program.constants),
      ("extract", array (program.extractions.map Extraction.encode)),
      ("outputs", Workflow.encodeTable Output.encode program.outputs),
      ("steps", array (program.steps.map Step.encode))]

def context (program : Program) : Context :=
  { Context.empty with constants := program.constants }

def listing (program : Program) : String :=
  Step.line ("// program: " ++ program.name ++ " (" ++ Text.ofNat program.steps.length ++
    " step(s))") ++
  (match program.description with
    | some description =>
      String.join ((Text.lines description).map fun text => Step.line ("// " ++ text))
    | none => "") ++
  String.join (program.steps.map Step.listing)

end Program

end BrowserFlow
