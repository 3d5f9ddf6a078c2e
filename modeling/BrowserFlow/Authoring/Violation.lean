import BrowserFlow.Json
import BrowserFlow.Reference
/-! Violations of the authoring rules: a place in a document and what is wrong there. -/
set_option autoImplicit false

namespace BrowserFlow.Authoring

open Json

inductive Kind where
  | object
  | array
  | text
  | truth
  | integer
  | scalar
deriving DecidableEq, Repr

namespace Kind

def name : Kind → String
  | object => "object"
  | array => "array"
  | text => "string"
  | truth => "boolean"
  | integer => "integer"
  | scalar => "string,number,boolean"

def accepts : Kind → Json → Bool
  | object, .object _ => true
  | array, .array _ => true
  | text, .string _ => true
  | truth, .bool _ => true
  | integer, .integer _ => true
  | scalar, value => value.isScalar
  | _, _ => false

end Kind

inductive Pattern where
  | workflowName
  | conditionField
  | outputKey
deriving DecidableEq, Repr

namespace Pattern

def source : Pattern → String
  | workflowName => "^[a-z0-9][a-z0-9-]*$"
  | conditionField =>
    "^(extract|input|constants)\\.[A-Za-z_][A-Za-z0-9_]*" ++
      "(\\.([A-Za-z_][A-Za-z0-9_]*|[0-9]+))*$"
  | outputKey => "^[A-Za-z_][A-Za-z0-9_]*$"

def startsName (c : Char) : Bool :=
  ('a' ≤ c && c ≤ 'z') || Text.isDigit c

def isWorkflowName : List Char → Bool
  | [] => false
  | c :: rest => startsName c && rest.all fun c => startsName c || c == '-'

def isConditionField (chars : List Char) : Bool :=
  match (Text.splitAt '.' chars).map String.ofList with
  | scope :: first :: rest =>
    (Scope.ofName? scope).isSome && Text.isIdentifier first.toList &&
      rest.all Reference.isSegment
  | _ => false

def accepts (pattern : Pattern) (text : String) : Bool :=
  match pattern with
  | workflowName => isWorkflowName text.toList
  | conditionField => isConditionField text.toList
  | outputKey => Text.isIdentifier text.toList

end Pattern

inductive Defect where
  | missing (property : String)
  | additional (property : String)
  | wrongKind (expected : Kind)
  | tooShort
  | tooFew
  | mismatch (pattern : Pattern)
  | notAllowed (allowed : List String)
  | tooSmall
  | noShape
  | bothShapes
deriving DecidableEq, Repr

namespace Defect

def keyword : Defect → String
  | missing _ => "required"
  | additional _ => "additionalProperties"
  | wrongKind _ => "type"
  | tooShort => "minLength"
  | tooFew => "minItems"
  | mismatch _ => "pattern"
  | notAllowed _ => "enum"
  | tooSmall => "minimum"
  | noShape => "oneOf"
  | bothShapes => "oneOf"

def message : Defect → String
  | missing property => "must have required property '" ++ property ++ "'"
  | additional _ => "must NOT have additional properties"
  | wrongKind expected => "must be " ++ expected.name
  | tooShort => "must NOT have fewer than 1 characters"
  | tooFew => "must NOT have fewer than 1 items"
  | mismatch pattern => "must match pattern \"" ++ pattern.source ++ "\""
  | notAllowed _ => "must be equal to one of the allowed values"
  | tooSmall => "must be >= 1"
  | noShape => "must match exactly one schema in oneOf"
  | bothShapes => "must match exactly one schema in oneOf"

def params : Defect → Json
  | missing property => object [("missingProperty", string property)]
  | additional property => object [("additionalProperty", string property)]
  | wrongKind expected => object [("type", string expected.name)]
  | tooShort => object [("limit", integer 1)]
  | tooFew => object [("limit", integer 1)]
  | mismatch pattern => object [("pattern", string pattern.source)]
  | notAllowed allowed => object [("allowedValues", strings allowed)]
  | tooSmall => object [("comparison", string ">="), ("limit", integer 1)]
  | noShape => object [("passingSchemas", null)]
  | bothShapes => object [("passingSchemas", array [integer 0, integer 1])]

end Defect

inductive Token where
  | key (name : String)
  | index (place : Nat)
deriving DecidableEq, Repr

abbrev Pointer := List Token

namespace Token

def escapeChar (c : Char) : List Char :=
  if c = '~' then ['~', '0']
  else if c = '/' then ['~', '1']
  else [c]

def text : Token → String
  | key name => String.ofList (name.toList.flatMap escapeChar)
  | index place => Text.ofNat place

end Token

def Pointer.text (pointer : Pointer) : String :=
  if pointer.isEmpty then "(root)"
  else String.join (pointer.map fun token => "/" ++ token.text)

structure Violation where
  pointer : Pointer
  defect : Defect
deriving DecidableEq, Repr

def Violation.encode (violation : Violation) : Json :=
  object [("path", string (Pointer.text violation.pointer)),
    ("message", string violation.defect.message), ("keyword", string violation.defect.keyword),
    ("params", violation.defect.params)]

end BrowserFlow.Authoring
