import BrowserFlow.Text.Word
/-! Places in a YAML text, the characters that separate its parts, and what can be wrong with it. -/
set_option autoImplicit false

namespace BrowserFlow.Yaml

-- A place in a text, counted from zero: its bytes from the start, its line, and the characters of
-- the line before it.
structure Mark where
  index : Nat
  line : Nat
  column : Nat
deriving DecidableEq, Repr, Inhabited

namespace Mark

def start : Mark := ⟨0, 0, 0⟩

def isStart (mark : Mark) : Bool :=
  mark.line == 0 && mark.column == 0

def text (mark : Mark) : String :=
  "line " ++ Text.ofNat (mark.line + 1) ++ " column " ++ Text.ofNat (mark.column + 1)

def suffix (mark : Mark) : String :=
  if mark.isStart then "" else " at " ++ mark.text

end Mark

structure Cursor where
  rest : List Char
  mark : Mark
deriving DecidableEq, Repr, Inhabited

def isBreak (c : Char) : Bool :=
  c == '\n' || c == '\r' || c == '\x85' || c == '\u2028' || c == '\u2029'

def isBlank (c : Char) : Bool :=
  c == ' ' || c == '\t'

def endsWord : List Char → Bool
  | [] => true
  | c :: _ => isBlank c || isBreak c

namespace Cursor

def atEnd (cursor : Cursor) : Bool :=
  cursor.rest.isEmpty

def sees (cursor : Cursor) (test : Char → Bool) : Bool :=
  cursor.rest.head?.any test

def skip (cursor : Cursor) : Cursor :=
  match cursor.rest with
  | [] => cursor
  | c :: rest =>
    ⟨rest, ⟨cursor.mark.index + c.utf8Size, cursor.mark.line, cursor.mark.column + 1⟩⟩

def skipMany : Nat → Cursor → Cursor
  | 0, cursor => cursor
  | count + 1, cursor => skipMany count cursor.skip

def skipWhile (test : Char → Bool) (cursor : Cursor) : Cursor :=
  skipMany (cursor.rest.takeWhile test).length cursor

def skipComment (cursor : Cursor) : Cursor :=
  if cursor.sees (· == '#') then cursor.skipWhile fun c => !isBreak c else cursor

-- Takes a line break; a carriage return and a line feed are one. The separators of lines and of
-- paragraphs stand for themselves, all others for a line feed.
def takeBreak (cursor : Cursor) : List Char × Cursor :=
  let mark := cursor.mark
  match cursor.rest with
  | '\r' :: '\n' :: rest => (['\n'], ⟨rest, ⟨mark.index + 2, mark.line + 1, 0⟩⟩)
  | c :: rest =>
    let written := if c == '\u2028' || c == '\u2029' then c else '\n'
    ([written], ⟨rest, ⟨mark.index + c.utf8Size, mark.line + 1, 0⟩⟩)
  | [] => ([], cursor)

def seesIndicator (cursor : Cursor) (c : Char) : Bool :=
  cursor.mark.column == 0 && [c, c, c].isPrefixOf cursor.rest && endsWord (cursor.rest.drop 3)

def seesDocumentIndicator (cursor : Cursor) : Bool :=
  cursor.seesIndicator '-' || cursor.seesIndicator '.'

end Cursor

inductive Activity where
  | simpleKey
  | nextToken
  | directive
  | versionDirective
  | tagDirective
  | tagPrefix
  | handle
  | handleEnd
  | anchor
  | aliasName
  | tag
  | tagUri
  | blockScalar
  | quotedScalar
  | quotedEscape
  | plainScalar
  | blockCollection
  | blockMapping
  | blockNode
  | flowNode
  | flowSequence
  | flowMapping
  | node
deriving DecidableEq, Repr

def Activity.text : Activity → String
  | simpleKey => "while scanning a simple key"
  | nextToken => "while scanning for the next token"
  | directive => "while scanning a directive"
  | versionDirective => "while scanning a %YAML directive"
  | tagDirective => "while scanning a %TAG directive"
  | tagPrefix => "while parsing a %TAG directive"
  | handle => "while scanning a tag directive"
  | handleEnd => "while parsing a tag directive"
  | anchor => "while scanning an anchor"
  | aliasName => "while scanning an alias"
  | tag => "while scanning a tag"
  | tagUri => "while parsing a tag"
  | blockScalar => "while scanning a block scalar"
  | quotedScalar => "while scanning a quoted scalar"
  | quotedEscape => "while parsing a quoted scalar"
  | plainScalar => "while scanning a plain scalar"
  | blockCollection => "while parsing a block collection"
  | blockMapping => "while parsing a block mapping"
  | blockNode => "while parsing a block node"
  | flowNode => "while parsing a flow node"
  | flowSequence => "while parsing a flow sequence"
  | flowMapping => "while parsing a flow mapping"
  | node => "while parsing a node"

inductive Fault where
  | controlCharacter
  | missingColon
  | noToken
  | entryNotAllowed
  | keyNotAllowed
  | valueNotAllowed
  | missingName
  | missingDirectiveName
  | strangeDirectiveName
  | unknownDirective
  | missingVersion
  | longVersion
  | missingVersionPoint
  | missingExclamation
  | missingBlank
  | missingBlankOrBreak
  | missingAngle
  | missingUri
  | missingOctet
  | wrongFirstOctet
  | wrongNextOctet
  | zeroIndentation
  | missingLineBreak
  | tabIndentation
  | tabInPlain
  | documentIndicator
  | endOfStream
  | unknownEscape
  | missingHexDigit
  | invalidCodePoint
  | colonInFlow
  | missingDocumentStart
  | incompatibleVersion
  | repeatedVersion
  | repeatedHandle
  | missingEntry
  | missingKey
  | missingContent
  | missingSequenceEnd
  | missingMappingEnd
  | undefinedTagHandle
deriving DecidableEq, Repr

def Fault.text : Fault → String
  | controlCharacter => "control characters are not allowed"
  | missingColon => "could not find expected ':'"
  | noToken => "found character that cannot start any token"
  | entryNotAllowed => "block sequence entries are not allowed in this context"
  | keyNotAllowed => "mapping keys are not allowed in this context"
  | valueNotAllowed => "mapping values are not allowed in this context"
  | missingName => "did not find expected alphabetic or numeric character"
  | missingDirectiveName => "could not find expected directive name"
  | strangeDirectiveName => "found unexpected non-alphabetical character"
  | unknownDirective => "found unknown directive name"
  | missingVersion => "did not find expected version number"
  | longVersion => "found extremely long version number"
  | missingVersionPoint => "did not find expected digit or '.' character"
  | missingExclamation => "did not find expected '!'"
  | missingBlank => "did not find expected whitespace"
  | missingBlankOrBreak => "did not find expected whitespace or line break"
  | missingAngle => "did not find the expected '>'"
  | missingUri => "did not find expected tag URI"
  | missingOctet => "did not find URI escaped octet"
  | wrongFirstOctet => "found an incorrect leading UTF-8 octet"
  | wrongNextOctet => "found an incorrect trailing UTF-8 octet"
  | zeroIndentation => "found an indentation indicator equal to 0"
  | missingLineBreak => "did not find expected comment or line break"
  | tabIndentation => "found a tab character where an indentation space is expected"
  | tabInPlain => "found a tab character that violates indentation"
  | documentIndicator => "found unexpected document indicator"
  | endOfStream => "found unexpected end of stream"
  | unknownEscape => "found unknown escape character"
  | missingHexDigit => "did not find expected hexadecimal number"
  | invalidCodePoint => "found invalid Unicode character escape code"
  | colonInFlow => "found unexpected ':'"
  | missingDocumentStart => "did not find expected <document start>"
  | incompatibleVersion => "found incompatible YAML document"
  | repeatedVersion => "found duplicate %YAML directive"
  | repeatedHandle => "found duplicate %TAG directive"
  | missingEntry => "did not find expected '-' indicator"
  | missingKey => "did not find expected key"
  | missingContent => "did not find expected node content"
  | missingSequenceEnd => "did not find expected ',' or ']'"
  | missingMappingEnd => "did not find expected ',' or '\x7d'"
  | undefinedTagHandle => "found undefined tag handle"

structure Error where
  fault : Fault
  mark : Mark
  during : Option (Activity × Mark)
deriving DecidableEq, Repr

namespace Error

def placeText (error : Error) : String :=
  if error.mark.isStart && error.mark.index != 0 then
    " at position " ++ Text.ofNat error.mark.index
  else error.mark.suffix

def activityText (error : Error) : String :=
  match error.during with
  | none => ""
  | some (activity, mark) =>
    ", " ++ activity.text ++
      if mark.line != error.mark.line || mark.column != error.mark.column then mark.suffix else ""

def message (error : Error) : String :=
  error.fault.text ++ error.placeText ++ error.activityText

end Error

def fail {α : Type} (activity : Activity) (start : Mark) (fault : Fault) (mark : Mark) :
    Except Error α :=
  .error ⟨fault, mark, some (activity, start)⟩

end BrowserFlow.Yaml
