import BrowserFlow.Expression
/-! Conditions under which a step is performed: comparisons of a context value with a fixed value, combined
by "all of" and "any of". -/
set_option autoImplicit false

namespace BrowserFlow

open Json Number

inductive Comparison where
  | equal
  | notEqual
  | greater
  | less
  | greaterOrEqual
  | lessOrEqual
deriving DecidableEq, Repr, Inhabited

namespace Comparison

def all : List Comparison :=
  [equal, notEqual, greater, less, greaterOrEqual, lessOrEqual]

def word : Comparison → String
  | equal => "=="
  | notEqual => "!="
  | greater => ">"
  | less => "<"
  | greaterOrEqual => ">="
  | lessOrEqual => "<="

def symbol : Comparison → String
  | equal => "==="
  | notEqual => "!=="
  | comparison => comparison.word

def words : List String :=
  all.map word

def named : List (String × Comparison) :=
  all.map fun comparison => (comparison.word, comparison)

def ofWord? (word : String) : Option Comparison :=
  Entries.find? word named

end Comparison

inductive Combination where
  | all
  | any
deriving DecidableEq, Repr, Inhabited

namespace Combination

def word : Combination → String
  | all => "all"
  | any => "any"

def named : List (String × Combination) :=
  [("all", all), ("any", any)]

def joint : Combination → String
  | all => " && "
  | any => " || "

end Combination

inductive Guard where
  | compare (field : Reference) (comparison : Comparison) (value : Json)
  | group (combination : Combination) (parts : List Guard)
deriving Repr, Inhabited, BEq

def strictlyEqual (left right : Json) : Bool :=
  match left.toDouble?, right.toDouble? with
  | some left, some right => left.same right
  | _, _ => left.same right

-- The number that a value stands for in a comparison. Texts are read as decimals, truth values
-- count as one and zero, null as zero.
def numeric? : Json → Option Extended
  | .null => some (.finite .zero)
  | .bool flag => some (.finite (if flag then .one else .zero))
  | .integer value => some (.finite (.ofInt value))
  | .float value => some (.finite value)
  | .string text => readDecimal? (Text.trimChars text.toList)
  | .array _ => none
  | .object _ => none

def order? (left right : Json) : Option Ordering :=
  match left, right with
  | string left, string right => some (compare left right)
  | left, right =>
    match numeric? left, numeric? right with
    | some left, some right => left.compare? right
    | _, _ => none

namespace Comparison

def allows : Comparison → Ordering → Bool
  | greater, order => order == .gt
  | less, order => order == .lt
  | greaterOrEqual, order => order != .lt
  | lessOrEqual, order => order != .gt
  | equal, _ => false
  | notEqual, _ => false

def holds (comparison : Comparison) (actual : Option Json) (expected : Json) : Bool :=
  match comparison with
  | equal => actual.any fun actual => strictlyEqual actual expected
  | notEqual => !(actual.any fun actual => strictlyEqual actual expected)
  | relation =>
    match actual.bind fun actual => order? actual expected with
    | some order => relation.allows order
    | none => false

end Comparison

namespace Guard

mutual

def holds (context : Context) (guard : Guard) : Bool :=
  match guard with
  | compare field comparison value => comparison.holds (context.lookup field) value
  | group .all parts => allHold context parts
  | group .any parts => anyHolds context parts
termination_by structural guard

def allHold (context : Context) (parts : List Guard) : Bool :=
  match parts with
  | [] => true
  | part :: rest => holds context part && allHold context rest
termination_by structural parts

def anyHolds (context : Context) (parts : List Guard) : Bool :=
  match parts with
  | [] => false
  | part :: rest => holds context part || anyHolds context rest
termination_by structural parts

end

mutual

def displayPart (part : Guard) : String :=
  match part with
  | compare field comparison value =>
    field.text ++ " " ++ comparison.symbol ++ " " ++ literalText value
  | group combination parts => "(" ++ displayParts combination parts ++ ")"
termination_by structural part

def displayParts (combination : Combination) (parts : List Guard) : String :=
  match parts with
  | [] => ""
  | [part] => displayPart part
  | part :: rest => displayPart part ++ combination.joint ++ displayParts combination rest
termination_by structural parts

end

def display (guard : Guard) : String :=
  match guard with
  | compare field comparison value =>
    field.text ++ " " ++ comparison.symbol ++ " " ++ literalText value
  | group combination parts => displayParts combination parts

mutual

def references (guard : Guard) : List Reference :=
  match guard with
  | compare field _ _ => [field]
  | group _ parts => partReferences parts
termination_by structural guard

def partReferences (parts : List Guard) : List Reference :=
  match parts with
  | [] => []
  | part :: rest => references part ++ partReferences rest
termination_by structural parts

end

mutual

def encode (guard : Guard) : Json :=
  match guard with
  | compare field comparison value =>
    object [("kind", string "compare"), ("field", field.encode),
      ("operator", string comparison.word), ("value", value)]
  | group combination parts =>
    object [("kind", string "group"), ("mode", string combination.word),
      ("conditions", array (encodeParts parts))]
termination_by structural guard

def encodeParts (parts : List Guard) : List Json :=
  match parts with
  | [] => []
  | part :: rest => encode part :: encodeParts rest
termination_by structural parts

end

def compareFields : Fields Guard :=
  compare <$> required "field" Reference.decode <*>
    required "operator" (decodeWordOf Comparison.named) <*> required "value" decodeAny

def groupFields (decode : Decoder Guard) : Fields Guard :=
  group <$> required "mode" (decodeWordOf Combination.named) <*>
    required "conditions" (decodeList decode)

def compareNames : List String := ["field", "operator", "value"]

def groupNames : List String := ["mode", "conditions"]

def decodeWithin : Nat → Decoder Guard
  | 0, source => source.mismatch "a guard of less depth"
  | depth + 1, source =>
    decodeKinds "internally tagged enum Guard"
      [("compare", record "struct variant Guard::Compare" compareNames compareFields),
        ("group",
          record "struct variant Guard::Group" groupNames (groupFields (decodeWithin depth)))]
      source

def decode : Decoder Guard := fun source =>
  decodeWithin (source.depth + 1) source

end Guard

end BrowserFlow
