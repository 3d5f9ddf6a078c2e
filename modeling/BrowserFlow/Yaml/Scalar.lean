import BrowserFlow.Json.Scalar
import BrowserFlow.Yaml.Mark
/-! The texts of YAML scalars: quoted, plain and in blocks. A single line break inside a quoted or plain
scalar is read as a space, further ones as themselves. -/
set_option autoImplicit false

namespace BrowserFlow.Yaml

structure ScalarText where
  text : List Char
  cursor : Cursor
  acrossLines : Bool
deriving Repr

-- Blanks and line breaks between two words: the blanks of the first line, its line break, and the
-- line breaks after it.
structure Gap where
  blanks : List Char
  first : List Char
  more : List Char
deriving Repr, Inhabited

namespace Gap

def none : Gap := ⟨[], [], []⟩

def hasBreak (gap : Gap) : Bool :=
  !gap.first.isEmpty

def fold (gap : Gap) : List Char :=
  match gap.first with
  | [] => gap.blanks
  | ['\n'] => if gap.more.isEmpty then [' '] else gap.more
  | first => first ++ gap.more

end Gap

-- Takes blanks and line breaks. `indented` is the least column of the lines that follow.
def takeGap (start : Mark) (indented : Option Nat) : Nat → Gap → Cursor → Except Error (Gap × Cursor)
  | 0, gap, cursor => .ok (gap, cursor)
  | fuel + 1, gap, cursor =>
    match cursor.rest with
    | [] => .ok (gap, cursor)
    | c :: _ =>
      if isBlank c then
        if gap.hasBreak && c == '\t' && (indented.any fun column => cursor.mark.column < column)
        then fail .plainScalar start .tabInPlain cursor.mark
        else if gap.hasBreak then takeGap start indented fuel gap cursor.skip
        else takeGap start indented fuel { gap with blanks := gap.blanks ++ [c] } cursor.skip
      else if isBreak c then
        let (written, cursor) := cursor.takeBreak
        if gap.hasBreak then
          takeGap start indented fuel { gap with more := gap.more ++ written } cursor
        else takeGap start indented fuel { gap with blanks := [], first := written } cursor
      else .ok (gap, cursor)

def simpleEscape? (c : Char) : Option Char :=
  if c == '0' then some '\x00'
  else if c == 'a' then some '\x07'
  else if c == 'b' then some '\x08'
  else if c == 't' || c == '\t' then some '\t'
  else if c == 'n' then some '\n'
  else if c == 'v' then some '\x0b'
  else if c == 'f' then some '\x0c'
  else if c == 'r' then some '\r'
  else if c == 'e' then some '\x1b'
  else if c == ' ' || c == '\x22' || c == '/' || c == '\\' then some c
  else if c == 'N' then some '\x85'
  else if c == '_' then some '\xa0'
  else if c == 'L' then some '\u2028'
  else if c == 'P' then some '\u2029'
  else none

def hexCount? (c : Char) : Option Nat :=
  if c == 'x' then some 2
  else if c == 'u' then some 4
  else if c == 'U' then some 8
  else none

def takeHex (start : Mark) (count : Nat) (cursor : Cursor) : Except Error (Char × Cursor) :=
  let digits := (cursor.rest.take count).filterMap Json.hexValue?
  let value := digits.foldl (fun total digit => total * 16 + digit) 0
  if digits.length < count then fail .quotedEscape start .missingHexDigit cursor.mark
  else if (0xd800 ≤ value && value ≤ 0xdfff) || 0x10ffff < value then
    fail .quotedEscape start .invalidCodePoint cursor.mark
  else .ok (Char.ofNat value, cursor.skipMany count)

def takeEscape (start : Mark) (cursor : Cursor) : Except Error (Char × Cursor) :=
  match cursor.rest.tail with
  | [] => fail .quotedEscape start .unknownEscape cursor.mark
  | c :: _ =>
    match simpleEscape? c, hexCount? c with
    | some decoded, _ => .ok (decoded, cursor.skipMany 2)
    | none, some count => takeHex start count (cursor.skipMany 2)
    | none, none => fail .quotedEscape start .unknownEscape cursor.mark

def takeQuoted (single : Bool) (start : Mark) : Nat → List Char → Cursor →
    Except Error ScalarText
  | 0, _, cursor => fail .quotedScalar start .endOfStream cursor.mark
  | fuel + 1, taken, cursor =>
    if cursor.seesDocumentIndicator then
      fail .quotedScalar start .documentIndicator cursor.mark
    else
      match cursor.rest with
      | [] => fail .quotedScalar start .endOfStream cursor.mark
      | c :: rest =>
        if isBlank c || isBreak c then
          match takeGap start none (rest.length + 1) .none cursor with
          | .error error => .error error
          | .ok (gap, cursor) => takeQuoted single start fuel (taken ++ gap.fold) cursor
        else if single && c == '\x27' && rest.head? == some '\x27' then
          takeQuoted single start fuel (taken ++ [c]) (cursor.skipMany 2)
        else if c == (if single then '\x27' else '\x22') then .ok ⟨taken, cursor.skip, false⟩
        else if !single && c == '\\' then
          if rest.head?.any isBreak then
            match takeGap start none (rest.length + 1) ⟨[], ['\\'], []⟩ cursor.skip.takeBreak.2 with
            | .error error => .error error
            | .ok (gap, cursor) => takeQuoted single start fuel (taken ++ gap.more) cursor
          else
            match takeEscape start cursor with
            | .error error => .error error
            | .ok (decoded, cursor) => takeQuoted single start fuel (taken ++ [decoded]) cursor
        else takeQuoted single start fuel (taken ++ [c]) cursor.skip

def quotedScalar (single : Bool) (cursor : Cursor) : Except Error ScalarText :=
  takeQuoted single cursor.mark (cursor.rest.length + 1) [] cursor.skip

def isFlowIndicator (c : Char) : Bool :=
  c == ',' || c == '[' || c == ']' || c == '\x7b' || c == '\x7d'

def endsPlain (inFlow : Bool) : List Char → Bool
  | [] => true
  | c :: rest =>
    isBlank c || isBreak c || (c == ':' && endsWord rest) || (inFlow && isFlowIndicator c)

def misplacesColon (inFlow : Bool) : List Char → Bool
  | ':' :: c :: _ => inFlow && (isFlowIndicator c || c == '?')
  | _ => false

def takePlainWord (inFlow : Bool) (start : Mark) : Nat → List Char → Cursor →
    Except Error (List Char × Cursor)
  | 0, taken, cursor => .ok (taken, cursor)
  | fuel + 1, taken, cursor =>
    if endsWord cursor.rest then .ok (taken, cursor)
    else if misplacesColon inFlow cursor.rest then
      fail .plainScalar start .colonInFlow cursor.mark
    else if endsPlain inFlow cursor.rest then .ok (taken, cursor)
    else takePlainWord inFlow start fuel (taken ++ cursor.rest.take 1) cursor.skip

def takePlain (inFlow : Bool) (indent : Nat) (start : Mark) : Nat → List Char → Gap → Cursor →
    Except Error ScalarText
  | 0, taken, gap, cursor => .ok ⟨taken, cursor, gap.hasBreak⟩
  | fuel + 1, taken, gap, cursor =>
    if cursor.seesDocumentIndicator || cursor.sees (· == '#') then
      .ok ⟨taken, cursor, gap.hasBreak⟩
    else
      match takePlainWord inFlow start (cursor.rest.length + 1) [] cursor with
      | .error error => .error error
      | .ok (word, cursor) =>
        let (taken, gap) := if word.isEmpty then (taken, gap) else (taken ++ gap.fold ++ word, .none)
        if !cursor.sees (fun c => isBlank c || isBreak c) then .ok ⟨taken, cursor, gap.hasBreak⟩
        else
          match takeGap start (some indent) (cursor.rest.length + 1) gap cursor with
          | .error error => .error error
          | .ok (gap, cursor) =>
            if !inFlow && cursor.mark.column < indent then .ok ⟨taken, cursor, gap.hasBreak⟩
            else takePlain inFlow indent start fuel taken gap cursor

def plainScalar (inFlow : Bool) (indent : Nat) (cursor : Cursor) : Except Error ScalarText :=
  takePlain inFlow indent cursor.mark (cursor.rest.length + 1) [] .none cursor

inductive Chomping where
  | strip
  | clip
  | keep
deriving DecidableEq, Repr

structure BlockHeader where
  chomping : Chomping
  increment : Option Nat
deriving DecidableEq, Repr

def chomping? : Char → Option Chomping
  | '+' => some .keep
  | '-' => some .strip
  | _ => none

def takeHeader (start : Mark) (cursor : Cursor) : Except Error (BlockHeader × Cursor) :=
  let digit (cursor : Cursor) : Except Error (Option Nat × Cursor) :=
    match cursor.rest with
    | c :: _ =>
      if c == '0' then fail .blockScalar start .zeroIndentation cursor.mark
      else if Text.isDigit c then .ok (some (Text.digitValue c), cursor.skip)
      else .ok (none, cursor)
    | [] => .ok (none, cursor)
  match cursor.rest.head?.bind chomping? with
  | some chomping =>
    match digit cursor.skip with
    | .error error => .error error
    | .ok (increment, cursor) => .ok (⟨chomping, increment⟩, cursor)
  | none =>
    match digit cursor with
    | .error error => .error error
    | .ok (none, cursor) => .ok (⟨.clip, none⟩, cursor)
    | .ok (some increment, cursor) =>
      match cursor.rest.head?.bind chomping? with
      | some chomping => .ok (⟨chomping, some increment⟩, cursor.skip)
      | none => .ok (⟨.clip, some increment⟩, cursor)

def takeEmptyLines (start : Mark) (indent : Option Nat) : Nat → List Char → Nat → Cursor →
    Except Error (List Char × Nat × Cursor)
  | 0, breaks, widest, cursor => .ok (breaks, widest, cursor)
  | fuel + 1, breaks, widest, cursor =>
    let spaces := (cursor.rest.takeWhile (· == ' ')).length
    let taken := match indent with
      | none => spaces
      | some indent => min spaces (indent - cursor.mark.column)
    let cursor := cursor.skipMany taken
    let widest := max widest cursor.mark.column
    let inside := match indent with
      | none => true
      | some indent => cursor.mark.column < indent
    if inside && cursor.sees (· == '\t') then
      fail .blockScalar start .tabIndentation cursor.mark
    else if cursor.sees isBreak then
      let (written, cursor) := cursor.takeBreak
      takeEmptyLines start indent fuel (breaks ++ written) widest cursor
    else .ok (breaks, widest, cursor)

-- The lines of a block, the break of the line before and the empty lines after it being held
-- back.
structure BlockText where
  text : List Char
  lastBreak : List Char
  empty : List Char
  blankStart : Bool
deriving Repr

-- The text with the breaks that were held back, before another line. In folded text a single break
-- between two lines that start with no blank is read as a space.
def BlockText.join (literal nextBlank : Bool) (block : BlockText) : List Char :=
  if !literal && block.lastBreak == ['\n'] && !block.blankStart && !nextBlank then
    block.text ++ (if block.empty.isEmpty then [' '] else []) ++ block.empty
  else block.text ++ block.lastBreak ++ block.empty

def takeLines (literal : Bool) (start : Mark) (indent : Nat) : Nat → BlockText → Cursor →
    Except Error (BlockText × Cursor)
  | 0, block, cursor => .ok (block, cursor)
  | fuel + 1, block, cursor =>
    if cursor.mark.column == indent && !cursor.atEnd then
      let blank := cursor.sees isBlank
      let line := cursor.rest.takeWhile fun c => !isBreak c
      let text := block.join literal blank ++ line
      let (written, cursor) := (cursor.skipMany line.length).takeBreak
      match takeEmptyLines start (some indent) (cursor.rest.length + 1) [] 0 cursor with
      | .error error => .error error
      | .ok (empty, _, cursor) =>
        takeLines literal start indent fuel ⟨text, written, empty, blank⟩ cursor
    else .ok (block, cursor)

def BlockText.finish (chomping : Chomping) (block : BlockText) : List Char :=
  match chomping with
  | .strip => block.text
  | .clip => block.text ++ block.lastBreak
  | .keep => block.text ++ block.lastBreak ++ block.empty

def blockScalar (parent : Option Nat) (cursor : Cursor) : Except Error ScalarText := do
  let start := cursor.mark
  let literal := cursor.sees (· == '|')
  let (header, cursor) ← takeHeader start cursor.skip
  let cursor := (cursor.skipWhile isBlank).skipComment
  if !cursor.atEnd && !cursor.sees isBreak then
    fail .blockScalar start .missingLineBreak cursor.mark
  else
    let cursor := if cursor.atEnd then cursor else cursor.takeBreak.2
    let given := header.increment.map fun increment => parent.getD 0 + increment
    let (empty, widest, cursor) ←
      takeEmptyLines start given (cursor.rest.length + 1) [] 0 cursor
    let least := match parent with
      | some column => column + 1
      | none => 0
    let indent := given.getD (max (max widest least) 1)
    let (block, cursor) ←
      takeLines literal start indent (cursor.rest.length + 1) ⟨[], [], empty, false⟩ cursor
    return ⟨block.finish header.chomping, cursor, true⟩

end BrowserFlow.Yaml
