import BrowserFlow.Json.Scalar
/-! Values as they are written in a text. Every array and object keeps all that stands in it, up to the
first fault; what is wrong with the text shows when a value is read or passed over. -/
set_option autoImplicit false

namespace BrowserFlow.Json

-- What ends an array or object: its bracket, with the text after it, or a fault, as one who reads
-- it and as one who passes over it meets it.
inductive Ending where
  | closed (rest : List Char)
  | broken (reading passing : SyntaxError)
deriving Repr, Inhabited

structure Key where
  name : Except SyntaxError String
  rest : List Char

-- A value in a text, with the text from its start on. Arrays and objects are numbered by how deep
-- they are nested, from one.
inductive Written where
  | scalar (start : List Char) (reading : Except SyntaxError Json)
      (passing : Except SyntaxError (List Char))
  | array (start : List Char) (level : Nat) (items : List Written) (ending : Ending)
  | object (start : List Char) (level : Nat) (entries : List (Key × Written)) (ending : Ending)
  | absent (reading passing : SyntaxError)

def jsonNestingLimit : Nat := 128

def checkLevel (start : List Char) (level : Nat) : Except SyntaxError Unit :=
  if level < jsonNestingLimit then .ok () else .error (.ahead .tooDeep start)

def Ending.check : Ending → Except SyntaxError Unit
  | closed _ => .ok ()
  | broken reading _ => .error reading

namespace Written

def passed : Written → Except SyntaxError (List Char)
  | scalar _ _ passing => passing
  | array _ _ _ (.closed rest) => .ok rest
  | array _ _ _ (.broken _ passing) => .error passing
  | object _ _ _ (.closed rest) => .ok rest
  | object _ _ _ (.broken _ passing) => .error passing
  | absent _ passing => .error passing

mutual

def contents (value : Written) : Except SyntaxError Json :=
  match value with
  | scalar _ reading _ => reading
  | array start level items ending => do
    checkLevel start level
    let items ← itemContents items
    ending.check
    return .array items
  | object start level entries ending => do
    checkLevel start level
    let entries ← entryContents entries
    ending.check
    return .object entries
  | absent reading _ => .error reading
termination_by structural value

def itemContents (items : List Written) : Except SyntaxError (List Json) :=
  match items with
  | [] => .ok []
  | item :: rest => do
    let first ← contents item
    let rest ← itemContents rest
    return first :: rest
termination_by structural items

def entryContents (entries : List (Key × Written)) : Except SyntaxError (List (String × Json)) :=
  match entries with
  | [] => .ok []
  | (key, value) :: rest => do
    let name ← key.name
    let value ← contents value
    let rest ← entryContents rest
    return (name, value) :: rest
termination_by structural entries

end

def missing (error : SyntaxError) : Written :=
  absent error error

def word (start : List Char) (value : Json) (letters rest : List Char) : Written :=
  match readWord value letters rest with
  | .ok (value, rest) => scalar start (.ok value) (.ok rest)
  | .error error => scalar start (.error error) (.error error)

def number (start : List Char) (negative : Bool) (chars : List Char) : Written :=
  match takeNumeral negative chars with
  | .ok (numeral, rest) => scalar start (numeral.value rest) (.ok rest)
  | .error error => scalar start (.error error) (.error (passedFault error))

def string (start chars : List Char) : Written :=
  match readString chars with
  | .ok (text, rest) => scalar start (.ok (.string text)) (.ok rest)
  | .error error => scalar start (.error error) (passString chars)

def ofScalar (start : List Char) : Written :=
  match start with
  | [] => missing (.ahead .endInValue [])
  | 'n' :: rest => word start .null "ull".toList rest
  | 't' :: rest => word start (.bool true) "rue".toList rest
  | 'f' :: rest => word start (.bool false) "alse".toList rest
  | '-' :: rest => number start true rest
  | '\x22' :: rest => string start rest
  | c :: _ =>
    if Text.isDigit c then number start false start
    else missing (.ahead .expectedValue start)

def ofKey (chars : List Char) : Key × Except SyntaxError (List Char) :=
  match readString chars with
  | .ok (name, rest) => (⟨.ok name, rest⟩, .ok rest)
  | .error error =>
    match passString chars with
    | .ok rest => (⟨.error error, rest⟩, .ok rest)
    | .error fault => (⟨.error error, []⟩, .error fault)

mutual

-- A value after the blanks before it, inside `level` arrays and objects. `fuel` bounds the length
-- of the text.
def ofChars (fuel level : Nat) (chars : List Char) : Written :=
  match fuel with
  | 0 => missing (.behind .endInValue [])
  | fuel + 1 =>
    let start := skipSpace chars
    match start with
    | '[' :: rest =>
      match skipSpace rest with
      | ']' :: rest => array start (level + 1) [] (.closed rest)
      | [] =>
        let error := SyntaxError.ahead .endInList []
        array start (level + 1) [] (.broken error error)
      | rest =>
        let (items, ending) := itemsOfChars fuel (level + 1) rest
        array start (level + 1) items ending
    | '\x7b' :: rest =>
      match skipSpace rest with
      | '\x7d' :: rest => object start (level + 1) [] (.closed rest)
      | [] =>
        let error := SyntaxError.ahead .endInObject []
        object start (level + 1) [] (.broken error error)
      | rest =>
        let (entries, ending) := entriesOfChars fuel (level + 1) rest
        object start (level + 1) entries ending
    | start => ofScalar start
termination_by structural fuel

def itemsOfChars (fuel level : Nat) (chars : List Char) : List Written × Ending :=
  match fuel with
  | 0 => ([], .broken (.behind .endInList []) (.behind .endInList []))
  | fuel + 1 =>
    let item := ofChars fuel level chars
    match item.passed with
    | .error error => ([item], .broken error error)
    | .ok rest =>
      match skipSpace rest with
      | ']' :: rest => ([item], .closed rest)
      | ',' :: rest =>
        match skipSpace rest with
        | ']' :: rest =>
          ([item], .broken (.ahead .trailingComma (']' :: rest))
            (.ahead .expectedValue (']' :: rest)))
        | [] => ([item], .broken (.ahead .endInValue []) (.ahead .endInValue []))
        | rest =>
          let (items, ending) := itemsOfChars fuel level rest
          (item :: items, ending)
      | [] => ([item], .broken (.ahead .endInList []) (.ahead .endInList []))
      | rest => ([item], .broken (.ahead .expectedListEnd rest) (.ahead .expectedListEnd rest))
termination_by structural fuel

def entriesOfChars (fuel level : Nat) (chars : List Char) : List (Key × Written) × Ending :=
  match fuel with
  | 0 => ([], .broken (.behind .endInObject []) (.behind .endInObject []))
  | fuel + 1 =>
    match chars with
    | '\x22' :: rest =>
      let (key, passed) := ofKey rest
      let value := match passed with
        | .error error => missing error
        | .ok rest =>
          match skipSpace rest with
          | ':' :: rest => ofChars fuel level rest
          | [] => missing (.ahead .endInObject [])
          | rest => missing (.ahead .expectedColon rest)
      match value.passed with
      | .error error => ([(key, value)], .broken error error)
      | .ok rest =>
        match skipSpace rest with
        | '\x7d' :: rest => ([(key, value)], .closed rest)
        | ',' :: rest =>
          match skipSpace rest with
          | '\x7d' :: rest =>
            ([(key, value)], .broken (.ahead .trailingComma ('\x7d' :: rest))
              (.ahead .keyNotString ('\x7d' :: rest)))
          | [] => ([(key, value)], .broken (.ahead .endInValue []) (.ahead .endInObject []))
          | rest =>
            let (entries, ending) := entriesOfChars fuel level rest
            ((key, value) :: entries, ending)
        | [] => ([(key, value)], .broken (.ahead .endInObject []) (.ahead .endInObject []))
        | rest =>
          ([(key, value)], .broken (.ahead .expectedObjectEnd rest)
            (.ahead .expectedObjectEnd rest))
    | rest => ([], .broken (.ahead .keyNotString rest) (.ahead .keyNotString rest))
termination_by structural fuel

end

def within (level : Nat) (chars : List Char) : Written :=
  ofChars (2 * chars.length + 2) level chars

def ofText (text : String) : Written :=
  within 0 text.toList

def checkEnd (value : Written) : Except SyntaxError Unit := do
  match skipSpace (← value.passed) with
  | [] => return
  | rest => .error (.ahead .trailingCharacters rest)

end Written

-- A key written twice keeps its first place and its last value.
def read (text : String) : Except SyntaxError Json := do
  let written := Written.ofText text
  let value ← written.contents
  written.checkEnd
  return value.merged

end BrowserFlow.Json
