import BrowserFlow.Json
import BrowserFlow.Number.Decimal
/-! Values of plain scalars: null, truth values, whole numbers in four bases, decimals, and texts. -/
set_option autoImplicit false

namespace BrowserFlow.Yaml

open Number

def digit? (base : Nat) (c : Char) : Option Nat :=
  let value :=
    if Text.isDigit c then some (Text.digitValue c)
    else if 'a' ≤ c && c ≤ 'f' then some (c.toNat - 'a'.toNat + 10)
    else if 'A' ≤ c && c ≤ 'F' then some (c.toNat - 'A'.toNat + 10)
    else none
  value.filter (· < base)

def readDigits (base : Nat) (total : Nat) : List Char → Option Nat
  | [] => some total
  | c :: rest =>
    match digit? base c with
    | some digit => readDigits base (total * base + digit) rest
    | none => none

def readBase? (base : Nat) (chars : List Char) : Option Nat :=
  if chars.isEmpty then none else readDigits base 0 chars

-- A zero with further digits is text.
def hasLeadingZero (chars : List Char) : Bool :=
  match (splitSign chars).2 with
  | '0' :: rest => !rest.isEmpty && rest.all Text.isDigit
  | _ => false

def readMagnitude? (chars : List Char) : Option Nat :=
  match chars with
  | '0' :: 'x' :: digits => readBase? 16 digits
  | '0' :: 'o' :: digits => readBase? 8 digits
  | '0' :: 'b' :: digits => readBase? 2 digits
  | digits => if hasLeadingZero digits then none else readBase? 10 digits

def readWhole? (chars : List Char) : Option Int :=
  let (negative, rest) := splitSign chars
  (readMagnitude? rest).map fun value => if negative then -(value : Int) else value

def infinityWords : List String := [".inf", ".Inf", ".INF"]

def nanWords : List String := [".nan", ".NaN", ".NAN"]

def readFloat? (text : String) : Option Extended :=
  let chars := text.toList
  let (negative, rest) := splitSign chars
  if infinityWords.contains (String.ofList rest) then some (.infinite negative)
  else if nanWords.contains text then some .notANumber
  else if chars.head? == some '+' && (rest.head?.any fun c => c == '+' || c == '-') then none
  else
    match readDecimal? chars with
    | some (.finite value) => some (.finite value)
    | _ => none

def readTruth? (text : String) : Option Bool :=
  if ["true", "True", "TRUE"].contains text then some true
  else if ["false", "False", "FALSE"].contains text then some false
  else none

def isNullWord (text : String) : Bool :=
  ["~", "null", "Null", "NULL"].contains text

def floatValue : Extended → Json
  | .finite value => .float value
  | _ => .null

def isWide (value : Int) : Bool :=
  -(twoTo 127 : Int) ≤ value && value < twoTo 128

def plainValue? (text : String) : Option Json :=
  if text.isEmpty || isNullWord text then some .null
  else
    match readTruth? text with
    | some flag => some (.bool flag)
    | none =>
      match (readWhole? text.toList).filter isWide with
      | some value => if fitsInteger value then some (.integer value) else none
      | none =>
        if hasLeadingZero text.toList then some (.string text)
        else
          match readFloat? text with
          | some value => some (floatValue value)
          | none => some (.string text)

end BrowserFlow.Yaml
