import BrowserFlow.Action
import BrowserFlow.Authoring.Violation
import BrowserFlow.Condition
import BrowserFlow.Workflow.Definition
/-! Checking a document against the authoring rules. Every violation is reported, in the order of the rules
and of the document; a value of the wrong kind is not looked into. -/
set_option autoImplicit false

namespace BrowserFlow.Authoring

open Json

def violate (pointer : Pointer) (defect : Defect) : List Violation :=
  [⟨pointer, defect⟩]

def Pointer.child (pointer : Pointer) (name : String) : Pointer :=
  pointer ++ [.key name]

def whenPresent (key : String) (entries : Entries Json) (check : Json → List Violation) :
    List Violation :=
  match Entries.find? key entries with
  | some value => check value
  | none => []

def requireKeys (pointer : Pointer) (names : List String) (entries : Entries Json) :
    List Violation :=
  names.flatMap fun name =>
    if Entries.contains name entries then [] else violate pointer (.missing name)

def allowKeys (pointer : Pointer) (names : List String) (entries : Entries Json) :
    List Violation :=
  entries.flatMap fun entry =>
    if names.contains entry.1 then [] else violate pointer (.additional entry.1)

def requireKind (pointer : Pointer) (kind : Kind) (value : Json) : List Violation :=
  if kind.accepts value then [] else violate pointer (.wrongKind kind)

def checkText (pointer : Pointer) (check : String → List Violation) : Json → List Violation
  | string text => check text
  | _ => violate pointer (.wrongKind .text)

def checkObject (pointer : Pointer) (check : Entries Json → List Violation) :
    Json → List Violation
  | object entries => check entries
  | _ => violate pointer (.wrongKind .object)

def checkArray (pointer : Pointer) (check : List Json → List Violation) : Json → List Violation
  | array items => check items
  | _ => violate pointer (.wrongKind .array)

def requireText (pointer : Pointer) : Json → List Violation :=
  checkText pointer fun _ => []

def requireNonempty (pointer : Pointer) : Json → List Violation :=
  checkText pointer fun text => if text.isEmpty then violate pointer .tooShort else []

def requirePattern (pointer : Pointer) (pattern : Pattern) : Json → List Violation :=
  checkText pointer fun text =>
    if pattern.accepts text then [] else violate pointer (.mismatch pattern)

def requireWord (pointer : Pointer) (words : List String) : Json → List Violation :=
  checkText pointer fun text =>
    if words.contains text then [] else violate pointer (.notAllowed words)

def requireTexts (pointer : Pointer) (names : List String) (entries : Entries Json) :
    List Violation :=
  names.flatMap fun name => whenPresent name entries (requireText (pointer.child name))

def checkItems (check : Pointer → Json → List Violation) (pointer : Pointer) (place : Nat) :
    List Json → List Violation
  | [] => []
  | item :: rest =>
    check (pointer ++ [.index place]) item ++ checkItems check pointer (place + 1) rest

def checkValues (check : Pointer → Json → List Violation) (pointer : Pointer)
    (entries : Entries Json) : List Violation :=
  entries.flatMap fun entry => check (pointer.child entry.1) entry.2

def checkComparison (pointer : Pointer) (entries : Entries Json) : List Violation :=
  requireKeys pointer Condition.comparisonKeys entries ++
  allowKeys pointer Condition.comparisonKeys entries ++
  whenPresent "field" entries (requirePattern (pointer.child "field") .conditionField) ++
  whenPresent "op" entries (requireWord (pointer.child "op") Comparison.words) ++
  whenPresent "value" entries (requireKind (pointer.child "value") .scalar)

-- Joins the reports of the two shapes: none when exactly one shape fits; else the report of the
-- shape that the keys suggest, if they suggest one.
def joinShapes (pointer : Pointer) (entries : Entries Json) (single grouped : List Violation) :
    List Violation :=
  match single, grouped with
  | [], [] => violate pointer .bothShapes
  | [], _ :: _ => []
  | _ :: _, [] => []
  | _ :: _, _ :: _ =>
    (match Condition.hasAny Condition.comparisonKeys entries,
        Condition.hasAny Condition.combinationKeys entries with
      | true, false => single
      | false, true => grouped
      | _, _ => []) ++ violate pointer .noShape

mutual

def checkCondition (pointer : Pointer) (condition : Json) : List Violation :=
  match condition with
  | object entries =>
    joinShapes pointer entries (checkComparison pointer entries)
      (requireKeys pointer Condition.combinationKeys entries ++
        allowKeys pointer Condition.combinationKeys entries ++
        checkParts (pointer.child "conditions") entries ++
        whenPresent "match" entries
          (requireWord (pointer.child "match") (Combination.named.map Prod.fst)))
  | _ => violate pointer .noShape
termination_by structural condition

def checkParts (pointer : Pointer) (entries : List (String × Json)) : List Violation :=
  match entries with
  | [] => []
  | (key, value) :: rest =>
    if key = "conditions" then
      match value with
      | array [] => violate pointer .tooFew
      | array (first :: others) =>
        checkCondition (pointer ++ [.index 0]) first ++ checkConditions pointer 1 others
      | _ => violate pointer (.wrongKind .array)
    else checkParts pointer rest
termination_by structural entries

def checkConditions (pointer : Pointer) (place : Nat) (conditions : List Json) :
    List Violation :=
  match conditions with
  | [] => []
  | condition :: rest =>
    checkCondition (pointer ++ [.index place]) condition ++
      checkConditions pointer (place + 1) rest
termination_by structural conditions

end

def actionOf? (entries : Entries Json) : Option Action :=
  (Condition.text? "action" entries).bind Action.ofName?

def checkAction (pointer : Pointer) : Json → List Violation :=
  checkText pointer fun text =>
    if (Action.ofName? text).isSome then []
    else violate pointer (.notAllowed (Action.names ++ [Action.rawCodeAlias]))

def checkTimeout (pointer : Pointer) : Json → List Violation
  | integer value => if value < 1 then violate pointer .tooSmall else []
  | _ => violate pointer (.wrongKind .integer)

def stepTextKeys : List String :=
  ["selector", "url", "key", "file", "code", "hint", "description"]

def checkStep (pointer : Pointer) : Json → List Violation :=
  checkObject pointer fun entries =>
    requireKeys pointer ["name", "action"] entries ++
    allowKeys pointer AuthoredStep.fieldNames entries ++
    whenPresent "name" entries (requireNonempty (pointer.child "name")) ++
    whenPresent "action" entries (checkAction (pointer.child "action")) ++
    (match actionOf? entries with
      | some action => requireKeys pointer action.requiredFields entries
      | none => []) ++
    requireTexts pointer stepTextKeys entries ++
    whenPresent "value" entries (requireKind (pointer.child "value") .scalar) ++
    whenPresent "timeout" entries (checkTimeout (pointer.child "timeout")) ++
    whenPresent "output" entries (requirePattern (pointer.child "output") .outputKey) ++
    whenPresent "when" entries (checkCondition (pointer.child "when"))

def checkSteps (pointer : Pointer) : Json → List Violation :=
  checkArray pointer fun steps =>
    (if steps.isEmpty then violate pointer .tooFew else []) ++
      checkItems checkStep pointer 0 steps

def checkParameter (pointer : Pointer) : Json → List Violation :=
  checkObject pointer fun entries =>
    allowKeys pointer Parameter.fieldNames entries ++
    requireTexts pointer ["type", "description"] entries ++
    whenPresent "required" entries (requireKind (pointer.child "required") .truth)

def checkInput (pointer : Pointer) : Json → List Violation :=
  checkObject pointer (checkValues checkParameter pointer)

def checkExtraction (pointer : Pointer) : Json → List Violation :=
  checkObject pointer fun entries =>
    requireKeys pointer ["field", "prompt"] entries ++
    allowKeys pointer ["field", "prompt", "type"] entries ++
    requireTexts pointer ["field", "prompt", "type"] entries

def checkExtract (pointer : Pointer) : Json → List Violation :=
  checkArray pointer (checkItems checkExtraction pointer 0)

def checkOutput (pointer : Pointer) : Json → List Violation :=
  checkObject pointer fun entries =>
    allowKeys pointer ["description"] entries ++ requireTexts pointer ["description"] entries

def checkOutputs (pointer : Pointer) : Json → List Violation :=
  checkObject pointer (checkValues checkOutput pointer)

def checkName (pointer : Pointer) : Json → List Violation :=
  checkText pointer fun text =>
    if text.isEmpty then violate pointer .tooShort
    else if Pattern.workflowName.accepts text then []
    else violate pointer (.mismatch .workflowName)

def check : Json → List Violation :=
  checkObject [] fun entries =>
    requireKeys [] ["name", "steps"] entries ++
    allowKeys [] Workflow.fieldNames entries ++
    whenPresent "name" entries (checkName [.key "name"]) ++
    whenPresent "description" entries (requireText [.key "description"]) ++
    whenPresent "input" entries (checkInput [.key "input"]) ++
    whenPresent "constants" entries (requireKind [.key "constants"] .object) ++
    whenPresent "extract" entries (checkExtract [.key "extract"]) ++
    whenPresent "output" entries (checkOutputs [.key "output"]) ++
    whenPresent "steps" entries (checkSteps [.key "steps"])

def isValid (document : Json) : Bool :=
  (check document).isEmpty

end BrowserFlow.Authoring
