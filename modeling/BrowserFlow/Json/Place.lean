import BrowserFlow.Text.Word
/-! Places in a JSON text, and what can be wrong with it there. -/
set_option autoImplicit false

namespace BrowserFlow.Json

inductive SyntaxFault where
  | endInList
  | endInObject
  | endInString
  | endInValue
  | expectedColon
  | expectedListEnd
  | expectedObjectEnd
  | expectedWord
  | expectedValue
  | invalidEscape
  | invalidNumber
  | numberOutOfRange
  | controlCharacter
  | keyNotString
  | loneSurrogate
  | trailingComma
  | trailingCharacters
  | endInHexEscape
  | tooDeep
deriving DecidableEq, Repr

def SyntaxFault.message : SyntaxFault → String
  | endInList => "EOF while parsing a list"
  | endInObject => "EOF while parsing an object"
  | endInString => "EOF while parsing a string"
  | endInValue => "EOF while parsing a value"
  | expectedColon => "expected `:`"
  | expectedListEnd => "expected `,` or `]`"
  | expectedObjectEnd => "expected `,` or `\x7d`"
  | expectedWord => "expected ident"
  | expectedValue => "expected value"
  | invalidEscape => "invalid escape"
  | invalidNumber => "invalid number"
  | numberOutOfRange => "number out of range"
  | controlCharacter => "control character (\\u0000-\\u001F) found while parsing a string"
  | keyNotString => "key must be a string"
  | loneSurrogate => "lone leading surrogate in hex escape"
  | trailingComma => "trailing comma"
  | trailingCharacters => "trailing characters"
  | endInHexEscape => "unexpected end of hex escape"
  | tooDeep => "recursion limit exceeded"

-- A position in a text: lines from one, columns in bytes.
structure Position where
  line : Nat
  column : Nat
deriving DecidableEq, Repr

namespace Position

def start : Position := ⟨1, 0⟩

def after (position : Position) (c : Char) : Position :=
  if c = '\n' then ⟨position.line + 1, 0⟩
  else ⟨position.line, position.column + c.utf8Size⟩

def advance : Nat → List Char → Position → Position
  | _, [], position => position
  | bytes, c :: rest, position =>
    if bytes = 0 then position
    else if bytes < c.utf8Size then ⟨position.line, position.column + bytes⟩
    else advance (bytes - c.utf8Size) rest (position.after c)

def text (position : Position) : String :=
  "line " ++ Text.ofNat position.line ++ " column " ++ Text.ofNat position.column

end Position

def byteCount (chars : List Char) : Nat :=
  chars.foldl (fun count c => count + c.utf8Size) 0

-- A place in a text: what is left of the text there, and how many bytes of that are taken.
structure TextPlace where
  rest : List Char
  taken : Nat
deriving DecidableEq, Repr, Inhabited

def TextPlace.position (place : TextPlace) (text : String) : Position :=
  let chars := text.toList
  Position.advance (byteCount chars - byteCount place.rest + place.taken) chars .start

structure SyntaxError where
  fault : SyntaxFault
  place : TextPlace
deriving DecidableEq, Repr

def SyntaxError.message (error : SyntaxError) (text : String) : String :=
  error.fault.message ++ " at " ++ (error.place.position text).text

def SyntaxError.behind (fault : SyntaxFault) (rest : List Char) : SyntaxError :=
  ⟨fault, rest, 0⟩

def SyntaxError.ahead (fault : SyntaxFault) (rest : List Char) : SyntaxError :=
  ⟨fault, rest, 1⟩

end BrowserFlow.Json
