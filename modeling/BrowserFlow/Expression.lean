import BrowserFlow.Context
import BrowserFlow.Json.Writer
/-! Values of a step. An authored text may hold references between `${` and `}`; it is a literal when it
holds none, a look-up when it is one reference and nothing else, and a template otherwise. -/
set_option autoImplicit false

namespace BrowserFlow

open Json Number

inductive Segment where
  | text (content : String)
  | reference (target : Reference)
deriving Repr, Inhabited, DecidableEq

inductive Expression where
  | literal (value : Json)
  | lookup (target : Reference)
  | template (segments : List Segment)
deriving Repr, Inhabited, BEq

namespace Segment

def splitToken : List Char → Option (List Char × List Char)
  | '$' :: '\x7b' :: rest =>
    match rest.dropWhile (· ≠ '\x7d') with
    | [] => none
    | _ :: after => some (rest.takeWhile (· ≠ '\x7d'), after)
  | _ => none

def readToken (chars : List Char) : Option (Reference × List Char) := do
  let (inside, after) ← splitToken chars
  let target ← Reference.readSingle? inside
  return (target, after)

def withText (front : List Char) (segments : List Segment) : List Segment :=
  if front.isEmpty then segments else text (String.ofList front) :: segments

-- The characters before the first reference, and the segments from it on. `fuel` is the length of
-- the text at least.
def scan : Nat → List Char → List Char × List Segment
  | 0, _ => ([], [])
  | _, [] => ([], [])
  | fuel + 1, c :: rest =>
    match readToken (c :: rest) with
    | some (target, after) =>
      let (front, segments) := scan fuel after
      ([], .reference target :: withText front segments)
    | none =>
      let (front, segments) := scan fuel rest
      (c :: front, segments)

def ofText (raw : String) : List Segment :=
  let (front, segments) := scan raw.toList.length raw.toList
  withText front segments

def reference? : Segment → Option Reference
  | text _ => none
  | reference target => some target

def written : Segment → String
  | text content => content
  | reference target => "$\x7b" ++ target.text ++ "\x7d"

end Segment

def escapeLiteralChar (c : Char) : List Char :=
  if c = '\\' then ['\\', '\\']
  else if c = '\x27' then ['\\', '\x27']
  else if c = '\n' then ['\\', 'n']
  else if c = '\r' then ['\\', 'r']
  else if c = '\t' then ['\\', 't']
  else [c]

def escapeLiteral (text : String) : String :=
  String.ofList (text.toList.flatMap escapeLiteralChar)

def escapeTemplateChars : List Char → List Char
  | [] => []
  | '$' :: '\x7b' :: rest => '\\' :: '$' :: '\x7b' :: escapeTemplateChars rest
  | c :: rest =>
    if c = '\\' then '\\' :: '\\' :: escapeTemplateChars rest
    else if c = '\x60' then '\\' :: '\x60' :: escapeTemplateChars rest
    else c :: escapeTemplateChars rest

def escapeTemplate (text : String) : String :=
  String.ofList (escapeTemplateChars text.toList)

def literalText : Json → String
  | string text => "'" ++ escapeLiteral text ++ "'"
  | value => value.compact

def fieldText : Json → String
  | string text => text
  | null => ""
  | value => value.compact

def templateText : Json → String
  | string text => text
  | float value => value.text plainLayout
  | value => value.compact

namespace Segment

def display : Segment → String
  | text content => escapeTemplate content
  | reference target => "$\x7b" ++ target.text ++ "\x7d"

def render (context : Context) : Segment → String
  | text content => content
  | reference target =>
    match context.lookup target with
    | some value => templateText value
    | none => "undefined"

def decode : Decoder Segment :=
  decodeChoice
    [("text", .carrying fun source => (decodeText source).map text),
      ("reference", .carrying fun source => (Reference.decode source).map reference)]

def encode : Segment → Json
  | text content => object [("text", string content)]
  | reference target => object [("reference", target.encode)]

end Segment

namespace Expression

def ofText (raw : String) : Expression :=
  let segments := Segment.ofText raw
  match segments with
  | [.reference target] => lookup target
  | _ =>
    if segments.any fun segment => segment.reference?.isSome then template segments
    else literal (string raw)

def ofValue : Json → Expression
  | string raw => ofText raw
  | value => literal value

def references : Expression → List Reference
  | literal _ => []
  | lookup target => [target]
  | template segments => segments.filterMap Segment.reference?

def display : Expression → String
  | literal value => literalText value
  | lookup target => target.text
  | template segments => "`" ++ String.join (segments.map Segment.display) ++ "`"

def evaluate (context : Context) : Expression → Except Reference Json
  | literal value => .ok value
  | lookup target =>
    match context.lookup target with
    | some value => .ok value
    | none => .error target
  | template segments => .ok (string (String.join (segments.map (Segment.render context))))

def decode : Decoder Expression :=
  decodeChoice
    [("literal", .carrying fun source => (decodeAny source).map literal),
      ("lookup", .carrying fun source => (Reference.decode source).map lookup),
      ("template", .carrying fun source => (decodeList Segment.decode source).map template)]

def encode : Expression → Json
  | literal value => object [("literal", value)]
  | lookup target => object [("lookup", target.encode)]
  | template segments => object [("template", array (segments.map Segment.encode))]

end Expression

end BrowserFlow
