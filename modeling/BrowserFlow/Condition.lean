import BrowserFlow.Guard
/-! Authored conditions: a comparison with `field`, `op` and `value`, or a combination with `conditions` and
`match`. They are turned into guards. -/
set_option autoImplicit false

namespace BrowserFlow.Condition

open Json

inductive Fault where
  | notObject (found : Json)
  | mixed
  | neither
  | fieldNotText
  | unknownField (raw : String)
  | operatorNotText
  | unknownOperator (raw : String)
  | missingValue (field : String)
  | partsNotArray
  | partsMissing
  | partsEmpty
  | unknownMatch
deriving Repr, BEq

def Fault.message : Fault → String
  | notObject found =>
    "condition must be an object with either field/op/value or conditions/match, got " ++
      found.compact
  | mixed =>
    "condition mixes a single comparison (field/op/value) with a combinator (conditions/match)"
  | neither =>
    "condition has neither a single comparison (field/op/value) nor a combinator " ++
      "(conditions/match)"
  | fieldNotText => "condition 'field' must be a string"
  | unknownField raw =>
    "condition field '" ++ raw ++ "' must reference extract.*, input.* or constants.*"
  | operatorNotText => "condition 'op' must be a string"
  | unknownOperator raw =>
    "unsupported condition operator '" ++ raw ++ "'; expected one of " ++
      Text.joinWith ", " Comparison.words
  | missingValue field => "condition on '" ++ field ++ "' is missing 'value'"
  | partsNotArray => "combined condition 'conditions' must be an array"
  | partsMissing => "combined condition is missing the 'conditions' array"
  | partsEmpty => "combined condition 'conditions' must not be empty"
  | unknownMatch => "combined condition 'match' must be \"all\" or \"any\""

def comparisonKeys : List String := ["field", "op", "value"]

def combinationKeys : List String := ["conditions", "match"]

def hasAny (keys : List String) (entries : Entries Json) : Bool :=
  keys.any fun key => Entries.contains key entries

def text? (key : String) (entries : Entries Json) : Option String :=
  (Entries.find? key entries).bind Json.string?

def comparison (entries : Entries Json) : Except Fault Guard := do
  let raw ← (text? "field" entries).elim (.error .fieldNotText) .ok
  let field ← (Reference.read? raw).elim (.error (.unknownField raw)) .ok
  let word ← (text? "op" entries).elim (.error .operatorNotText) .ok
  let comparison ← (Comparison.ofWord? word).elim (.error (.unknownOperator word)) .ok
  let value ← (Entries.find? "value" entries).elim (.error (.missingValue raw)) .ok
  return .compare field comparison value

def combination? (entries : Entries Json) : Option Combination :=
  (text? "match" entries).bind fun word => Entries.find? word Combination.named

mutual

def compile (condition : Json) : Except Fault Guard :=
  match condition with
  | object entries =>
    match hasAny comparisonKeys entries, hasAny combinationKeys entries with
    | true, true => .error .mixed
    | false, false => .error .neither
    | true, false => comparison entries
    | false, true => compileGroup (combination? entries) entries
  | other => .error (.notObject other)
termination_by structural condition

def compileGroup (combination : Option Combination) (entries : List (String × Json)) :
    Except Fault Guard :=
  match entries with
  | [] => .error .partsMissing
  | (key, value) :: rest =>
    if key = "conditions" then
      match value with
      | array [] => .error .partsEmpty
      | array (first :: others) =>
        match combination with
        | none => .error .unknownMatch
        | some combination =>
          match compile first with
          | .error fault => .error fault
          | .ok guard => (compileParts others).map fun guards => .group combination (guard :: guards)
      | _ => .error .partsNotArray
    else compileGroup combination rest
termination_by structural entries

def compileParts (conditions : List Json) : Except Fault (List Guard) :=
  match conditions with
  | [] => .ok []
  | condition :: rest =>
    match compile condition with
    | .error fault => .error fault
    | .ok guard => (compileParts rest).map (guard :: ·)
termination_by structural conditions

end

end BrowserFlow.Condition
