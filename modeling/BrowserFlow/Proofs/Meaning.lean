import BrowserFlow.Proofs.Json.WellFormed
import BrowserFlow.Proofs.Meaning.Token
import BrowserFlow.Run.Recorder
import BrowserFlow.Run
/-! What a workflow document means, said without compiling it. The authored steps are gone through in order;
conditions and values are looked up in the document each time they are needed. -/
set_option autoImplicit false

namespace BrowserFlow.Meaning

open Json

def fieldValue? (context : Context) (field : String) : Option Json :=
  match Text.splitAt '.' field.toList with
  | scope :: name :: path =>
    (scopeOf? (String.ofList scope)).bind fun scope =>
      (Entries.find? (String.ofList name) (context.scope scope)).bind fun value =>
        Context.follow value (path.map String.ofList)
  | _ => none

def compares (operator : String) (actual : Option Json) (expected : Json) : Bool :=
  let order := actual.bind fun actual => order? actual expected
  match operator with
  | "==" => actual.any fun actual => strictlyEqual actual expected
  | "!=" => !actual.any fun actual => strictlyEqual actual expected
  | ">" => order == some .gt
  | "<" => order == some .lt
  -- Values without an order are in none of the four relations, not even in these two.
  | ">=" => order == some .gt || order == some .eq
  | "<=" => order == some .lt || order == some .eq
  | _ => false

def comparisonHolds (context : Context) (entries : Entries Json) : Bool :=
  match Entries.find? "value" entries with
  | some expected =>
    compares (textAt "op" entries) (fieldValue? context (textAt "field" entries)) expected
  | none => false

mutual

def holds (context : Context) (condition : Json) : Bool :=
  match condition with
  | object entries =>
    if Entries.contains "conditions" entries then
      if textAt "match" entries = "all" then (verdicts context entries).all id
      else (verdicts context entries).any id
    else comparisonHolds context entries
  | _ => false
termination_by structural condition

def verdicts (context : Context) (entries : List (String × Json)) : List Bool :=
  match entries with
  | [] => []
  | (key, value) :: rest =>
    if key = "conditions" then
      match value with
      | array parts => partVerdicts context parts
      | _ => []
    else verdicts context rest
termination_by structural entries

def partVerdicts (context : Context) (parts : List Json) : List Bool :=
  match parts with
  | [] => []
  | part :: rest => holds context part :: partVerdicts context rest
termination_by structural parts

end

def isDue (context : Context) (step : Entries Json) : Bool :=
  match Entries.find? "when" step with
  | some condition => holds context condition
  | none => true

def replacement (context : Context) (scope : Scope) (name : String) : List Char :=
  match Entries.find? name (context.scope scope) with
  | some value => (templateText value).toList
  | none => "undefined".toList

def substitute (context : Context) (chars : List Char) : List Char :=
  match chars with
  | [] => []
  | c :: rest =>
    match _token : token? (c :: rest) with
    | some (scope, name, after) => replacement context scope name ++ substitute context after
    | none => c :: substitute context rest
termination_by chars.length
decreasing_by
  · exact token_shorter _ _ _ _ _token
  · simp

-- An authored value in a context. A text that is one token has the value that the token names; it
-- has none when that is absent.
def valueOf (context : Context) : Json → Except StepError Json
  | string raw =>
    match token? raw.toList with
    | some (scope, name, []) =>
      match Entries.find? name (context.scope scope) with
      | some value => .ok value
      | none => .error (.undefined ⟨scope, [name]⟩)
    | _ => .ok (string (String.ofList (substitute context raw.toList)))
  -- Numbers and truth values hold no tokens.
  | value => .ok value

def entryValue (context : Context) (key : String) (step : Entries Json) : Except StepError Json :=
  valueOf context ((Entries.find? key step).getD null)

def namesFiles : Json → Bool
  | string _ => true
  | array items => items.all fun item => item.string?.isSome
  | _ => false

def calls (context : Context) (step : Entries Json) : Except StepError (List Call) :=
  let selector := textAt "selector" step
  match textAt "action" step with
  | "navigate" => .ok [.navigate (textAt "url" step), .waitForLoad]
  | "click" => .ok [.click selector]
  | "press" => .ok [.press selector (textAt "key" step)]
  | "fill" => (entryValue context "value" step).map fun value => [.fill selector value]
  | "type" => (entryValue context "value" step).map fun value => [.typeText value]
  | "select" => (entryValue context "value" step).map fun value => [.selectOption selector value]
  | "file_upload" =>
    (entryValue context "file" step).bind fun files =>
      if namesFiles files then .ok [.setFiles selector files] else .error (.notFiles files)
  -- A step that does not say how long it waits waits half a minute.
  | "wait" =>
    match Entries.find? "timeout" step with
    | some (integer timeout) => .ok [.waitForSelector selector timeout.toNat]
    | _ => .ok [.waitForSelector selector 30000]
  | "raw_code" => .ok [.runScript (textAt "code" step)]
  | "playwright_code" => .ok [.runScript (textAt "code" step)]
  | _ => .ok []

def runsScript (step : Entries Json) : Bool :=
  textAt "action" step == "raw_code" || textAt "action" step == "playwright_code"

def perform : List Call → Recording → Option DriverError × Recording
  | [], recording => (none, recording)
  | call :: rest, recording =>
    match recording.record call with
    | (.ok (), after) => perform rest after
    | (.error error, after) => (some error, after)

-- The report with one more completed step. What a script comes to is kept under the step's output
-- key.
def completed (scriptResult : Option Json) (index : Nat) (step : Entries Json) (report : Report) :
    Report :=
  { report with
    completed := report.completed ++ [⟨index, textAt "name" step⟩]
    output :=
      match Condition.text? "output" step, scriptResult with
      | some key, some value =>
        if runsScript step then report.output.insert key value else report.output
      | _, _ => report.output }

def failed (error : StepError) (index : Nat) (step : Entries Json) (report : Report) : Report :=
  { report with
    failed := some ⟨index, textAt "name" step, Condition.text? "selector" step,
      Condition.text? "hint" step, error⟩ }

def interpretSteps (scriptResult : Option Json) (context : Context) (index : Nat) :
    List Json → Report → Recording → Report × Recording
  | [], report, recording => (report, recording)
  | step :: rest, report, recording =>
    let entries := entriesOf step
    if isDue context entries then
      match calls context entries with
      | .error error => (failed error index entries report, recording)
      | .ok calls =>
        match perform calls recording with
        | (some error, after) => (failed (.driver error) index entries report, after)
        | (none, after) =>
          interpretSteps scriptResult context (index + 1) rest
            (completed scriptResult index entries report) after
    else interpretSteps scriptResult context (index + 1) rest report recording

def stepsOf (document : Json) : List Json :=
  itemsOf ((Entries.find? "steps" (entriesOf document)).getD null)

def interpret (scriptResult : Option Json) (context : Context) (document : Json)
    (recording : Recording) : Report × Recording :=
  interpretSteps scriptResult context context.start ((stepsOf document).drop context.start) .empty
    recording

end BrowserFlow.Meaning
