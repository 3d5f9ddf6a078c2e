import BrowserFlow.Number.Decimal
import BrowserFlow.Workflow.Definition
/-! Input values against declared types, and the reading of input text into values of those types. -/
set_option autoImplicit false

namespace BrowserFlow

open Number

inductive InputKind where
  | number
  | truth
  | plainText (declared : String)
  | anything
deriving DecidableEq, Repr

def InputKind.ofType (declared : String) : InputKind :=
  let lowered := Text.lower declared
  if lowered == "number" || lowered == "integer" then .number
  else if lowered == "boolean" then .truth
  else if lowered == "string" || lowered == "file" || lowered == "image" then .plainText declared
  else .anything

def Parameter.kind (parameter : Parameter) : InputKind :=
  match parameter.type with
  | some declared => .ofType declared
  | none => .anything

inductive InputError where
  | notNumber
  | notTruth
  | notText (declared : String)
  | unreadableNumber (raw : String)
  | unreadableTruth (raw : String)
deriving DecidableEq, Repr

def InputError.message : InputError → String
  | notNumber => "value must be a number"
  | notTruth => "value must be true or false"
  | notText declared => "value must be text to satisfy type '" ++ declared ++ "'"
  | unreadableNumber raw => "'" ++ raw ++ "' is not a number"
  | unreadableTruth raw => "'" ++ raw ++ "' is not true or false"

def readNumberText? (text : String) : Option Extended :=
  readDecimal? (Text.trimChars text.toList)

def readTruthText? (text : String) : Option Bool :=
  let word := Text.trim text
  if word == "true" then some true
  else if word == "false" then some false
  else none

namespace InputKind

def check (kind : InputKind) (value : Json) : Except InputError Unit :=
  match kind with
  | number =>
    match value with
    | .integer _ => .ok ()
    | .float _ => .ok ()
    | .string text => if (readNumberText? text).isSome then .ok () else .error .notNumber
    | _ => .error .notNumber
  | truth =>
    match value with
    | .bool _ => .ok ()
    | .string text => if (readTruthText? text).isSome then .ok () else .error .notTruth
    | _ => .error .notTruth
  | plainText declared =>
    match value with
    | .string _ => .ok ()
    | _ => .error (.notText declared)
  | anything => .ok ()

def readNumber? (raw : String) : Option Json :=
  match readSigned? (Text.trimChars raw.toList) with
  | some value => some (.integer value)
  | none => ((readNumberText? raw).bind Extended.finite?).map .float

def coerce (kind : InputKind) (raw : String) : Except InputError Json :=
  match kind with
  | number =>
    match readNumber? raw with
    | some value => .ok value
    | none => .error (.unreadableNumber raw)
  | truth =>
    match readTruthText? raw with
    | some flag => .ok (.bool flag)
    | none => .error (.unreadableTruth raw)
  | _ => .ok (.string raw)

end InputKind

def Parameter.check (parameter : Parameter) (value : Json) : Except InputError Unit :=
  parameter.kind.check value

def coerceInput (parameter : Option Parameter) (raw : String) : Except InputError Json :=
  match parameter with
  | some parameter => parameter.kind.coerce raw
  | none => .ok (.string raw)

end BrowserFlow
