import BrowserFlow.Json
import BrowserFlow.Text.Blank
import BrowserFlow.Text.Lines
import BrowserFlow.Text.Word
import BrowserFlow.Json.Decoding
/-! References to the values of a run, such as `input.keyword` or `extract.receipt.total`. -/
set_option autoImplicit false

namespace BrowserFlow

open Json

inductive Scope where
  | extract
  | input
  | constants
deriving DecidableEq, Repr, Inhabited

namespace Scope

def all : List Scope := [extract, input, constants]

def name : Scope → String
  | extract => "extract"
  | input => "input"
  | constants => "constants"

def named : List (String × Scope) :=
  all.map fun scope => (scope.name, scope)

def ofName? (name : String) : Option Scope :=
  Entries.find? name named

def decode : Decoder Scope :=
  decodeWordOf named

end Scope

structure Reference where
  scope : Scope
  path : List String
deriving DecidableEq, Repr, Inhabited

namespace Reference

def isSegment (segment : String) : Bool :=
  Text.isDigits segment.toList || Text.isIdentifier segment.toList

def text (reference : Reference) : String :=
  reference.scope.name ++ "." ++ Text.joinWith "." reference.path

def read? (raw : String) : Option Reference :=
  match Text.split '.' (Text.trim raw) with
  | [] => none
  | first :: path =>
    match Scope.ofName? first with
    | some scope => if path.isEmpty || !path.all isSegment then none else some ⟨scope, path⟩
    | none => none

def readSingle? (chars : List Char) : Option Reference :=
  match Text.splitAt '.' chars with
  | [scope, name] =>
    if Text.isIdentifier name then
      (Scope.ofName? (String.ofList scope)).map fun scope => ⟨scope, [String.ofList name]⟩
    else none
  | _ => none

def fields : Fields Reference :=
  Reference.mk <$> required "scope" Scope.decode <*> required "path" (decodeList decodeText)

def decode : Decoder Reference :=
  record "struct VariableRef" ["scope", "path"] fields

def encode (reference : Reference) : Json :=
  object [("scope", string reference.scope.name), ("path", strings reference.path)]

end Reference

end BrowserFlow
