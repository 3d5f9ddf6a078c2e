import BrowserFlow.Yaml.Scalar
import BrowserFlow.Yaml.Tag
/-! The tokens of a YAML text. Collections in blocks are opened and closed by indentation; a token that
turns out to be a key gets its key token put in front of it. -/
set_option autoImplicit false

namespace BrowserFlow.Yaml

inductive TokenKind where
  | directive (directive : Directive)
  | documentStart
  | documentEnd
  | streamEnd
  | blockSequenceStart
  | blockMappingStart
  | blockEnd
  | flowSequenceStart
  | flowSequenceEnd
  | flowMappingStart
  | flowMappingEnd
  | blockEntry
  | flowEntry
  | key
  | value
  | aliasName (name : String)
  | anchor (name : String)
  | tag (tag : Tag)
  | scalar (plain : Bool) (text : String)
deriving DecidableEq, Repr, Inhabited

structure Token where
  kind : TokenKind
  mark : Mark
deriving DecidableEq, Repr, Inhabited

structure PossibleKey where
  required : Bool
  number : Nat
  mark : Mark
deriving DecidableEq, Repr, Inhabited

-- The open block collections are held by their columns, the innermost first; there may be a possible key
-- for each open flow collection and for the block around them.
structure Scan where
  cursor : Cursor
  tokens : Array Token
  indents : List Nat
  keyAllowed : Bool
  blockKey : Option PossibleKey
  flowKeys : List (Option PossibleKey)
deriving Inhabited

namespace Scan

def ofText (chars : List Char) : Scan :=
  ⟨⟨chars, .start⟩, #[], [], true, none, []⟩

def inFlow (scan : Scan) : Bool :=
  !scan.flowKeys.isEmpty

def mark (scan : Scan) : Mark :=
  scan.cursor.mark

def indent? (scan : Scan) : Option Nat :=
  scan.indents.head?

def push (scan : Scan) (kind : TokenKind) (mark : Mark) : Scan :=
  { scan with tokens := scan.tokens.push ⟨kind, mark⟩ }

def insertAt (scan : Scan) (number : Nat) (tokens : Array Token) : Scan :=
  { scan with
    tokens := scan.tokens.extract 0 number ++ tokens ++
      scan.tokens.extract number scan.tokens.size }

def possibleKey? (scan : Scan) : Option PossibleKey :=
  match scan.flowKeys with
  | [] => scan.blockKey
  | key :: _ => key

def setPossibleKey (scan : Scan) (key : Option PossibleKey) : Scan :=
  match scan.flowKeys with
  | [] => { scan with blockKey := key }
  | _ :: rest => { scan with flowKeys := key :: rest }

def isStale (scan : Scan) (key : PossibleKey) : Bool :=
  key.mark.line < scan.mark.line || key.mark.index + 1024 < scan.mark.index

def dropStale (scan : Scan) : List (Option PossibleKey) → Except Error (List (Option PossibleKey))
  | [] => .ok []
  | none :: rest => (dropStale scan rest).map (none :: ·)
  | some key :: rest =>
    if scan.isStale key then
      if key.required then fail .simpleKey key.mark .missingColon scan.mark
      else (dropStale scan rest).map (none :: ·)
    else (dropStale scan rest).map (some key :: ·)

def dropStaleKeys (scan : Scan) : Except Error Scan :=
  match dropStale scan (scan.blockKey :: scan.flowKeys.reverse) with
  | .error error => .error error
  | .ok [] => .ok scan
  | .ok (blockKey :: rest) => .ok { scan with blockKey, flowKeys := rest.reverse }

def forgetKey (scan : Scan) : Except Error Scan :=
  match scan.possibleKey? with
  | some key =>
    if key.required then fail .simpleKey key.mark .missingColon scan.mark
    else .ok (scan.setPossibleKey none)
  | none => .ok scan

def rememberKey (scan : Scan) : Except Error Scan :=
  if scan.keyAllowed then
    match scan.forgetKey with
    | .error error => .error error
    | .ok scan =>
      let required := !scan.inFlow && scan.indent? == some scan.mark.column
      .ok (scan.setPossibleKey (some ⟨required, scan.tokens.size, scan.mark⟩))
  else .ok scan

def allowKey (scan : Scan) (allowed : Bool) : Scan :=
  { scan with keyAllowed := allowed }

-- Opens a block collection at a column that lies further in. The token is put before the one of
-- `number`, or at the end.
def openAt (scan : Scan) (column : Nat) (number : Option Nat) (kind : TokenKind) (mark : Mark) :
    Scan :=
  if scan.inFlow || (scan.indent?.any fun indent => column ≤ indent) then scan
  else
    let scan := { scan with indents := column :: scan.indents }
    match number with
    | some number => scan.insertAt number #[⟨kind, mark⟩]
    | none => scan.push kind mark

def closeTo (column : Option Nat) (tokens : Array Token) (mark : Mark) :
    List Nat → Array Token × List Nat
  | [] => (tokens, [])
  | indent :: rest =>
    if column.all (· < indent) then closeTo column (tokens.push ⟨.blockEnd, mark⟩) mark rest
    else (tokens, indent :: rest)

def close (scan : Scan) (column : Option Nat) : Scan :=
  if scan.inFlow then scan
  else
    let (tokens, indents) := closeTo column scan.tokens scan.mark scan.indents
    { scan with tokens, indents }

def take (scan : Scan) (count : Nat) (kind : TokenKind) : Scan :=
  { scan.push kind scan.mark with cursor := scan.cursor.skipMany count }

-- Takes blanks, comments and line breaks. Tabs do not count where a key may stand in a block.
def skipToToken : Nat → Scan → Scan
  | 0, scan => scan
  | fuel + 1, scan =>
    let cursor :=
      if scan.cursor.mark.column == 0 && scan.cursor.sees (· == '\ufeff') then scan.cursor.skip
      else scan.cursor
    let cursor := (cursor.skipWhile fun c =>
      c == ' ' || (c == '\t' && (scan.inFlow || !scan.keyAllowed))).skipComment
    if cursor.sees isBreak then
      skipToToken fuel
        { scan with cursor := cursor.takeBreak.2, keyAllowed := scan.keyAllowed || !scan.inFlow }
    else { scan with cursor }

def endStream (scan : Scan) : Except Error Scan := do
  let mark := scan.mark
  let mark := if mark.column == 0 then mark else ⟨mark.index, mark.line + 1, 0⟩
  let scan := { scan with cursor := ⟨scan.cursor.rest, mark⟩ }
  let scan ← (scan.close none).forgetKey
  return (scan.allowKey false).push .streamEnd mark

def documentIndicator (kind : TokenKind) (scan : Scan) : Except Error Scan := do
  let scan ← (scan.close none).forgetKey
  return (scan.allowKey false).take 3 kind

def openFlow (kind : TokenKind) (scan : Scan) : Except Error Scan := do
  let scan ← scan.rememberKey
  let scan := scan.take 1 kind
  return { scan with flowKeys := none :: scan.flowKeys, keyAllowed := true }

def closeFlow (kind : TokenKind) (scan : Scan) : Except Error Scan := do
  let scan ← scan.forgetKey
  let scan := { scan with flowKeys := scan.flowKeys.tail }
  return (scan.allowKey false).take 1 kind

def flowEntry (scan : Scan) : Except Error Scan := do
  let scan ← scan.forgetKey
  return (scan.allowKey true).take 1 .flowEntry

def openBlock (fault : Fault) (kind : TokenKind) (scan : Scan) : Except Error Scan :=
  if scan.inFlow then .ok scan
  else if scan.keyAllowed then .ok (scan.openAt scan.mark.column none kind scan.mark)
  else .error ⟨fault, scan.mark, none⟩

def blockEntry (scan : Scan) : Except Error Scan := do
  let scan ← scan.openBlock .entryNotAllowed .blockSequenceStart
  let scan ← scan.forgetKey
  return (scan.allowKey true).take 1 .blockEntry

def explicitKey (scan : Scan) : Except Error Scan := do
  let scan ← scan.openBlock .keyNotAllowed .blockMappingStart
  let scan ← scan.forgetKey
  return (scan.allowKey !scan.inFlow).take 1 .key

def value (scan : Scan) : Except Error Scan :=
  match scan.possibleKey? with
  | some key =>
    let scan := scan.insertAt key.number #[⟨.key, key.mark⟩]
    let scan := scan.openAt key.mark.column (some key.number) .blockMappingStart key.mark
    .ok (((scan.setPossibleKey none).allowKey false).take 1 .value)
  | none =>
    match scan.openBlock .valueNotAllowed .blockMappingStart with
    | .error error => .error error
    | .ok scan => .ok ((scan.allowKey !scan.inFlow).take 1 .value)

def endsName : List Char → Bool
  | [] => true
  | c :: rest =>
    endsWord (c :: rest) || c == '?' || c == ':' || c == ',' || c == ']' || c == '\x7d' ||
      c == '%' || c == '@' || c == '\x60'

def name (activity : Activity) (kind : String → TokenKind) (scan : Scan) : Except Error Scan := do
  let scan ← scan.rememberKey
  let start := scan.mark
  let name := scan.cursor.rest.tail.takeWhile isNameChar
  let cursor := scan.cursor.skipMany (name.length + 1)
  if name.isEmpty || !endsName cursor.rest then fail activity start .missingName cursor.mark
  else
    let scan := (scan.allowKey false).push (kind (String.ofList name)) start
    return { scan with cursor }

def tag (scan : Scan) : Except Error Scan := do
  let scan ← scan.rememberKey
  let (tag, cursor) ← takeTag scan.inFlow scan.cursor
  return { (scan.allowKey false).push (.tag tag) scan.mark with cursor }

def pushScalar (plain : Bool) (start : Mark) (found : ScalarText) (scan : Scan) : Scan :=
  { scan.push (.scalar plain (String.ofList found.text)) start with
    cursor := found.cursor
    keyAllowed := found.acrossLines }

def block (scan : Scan) : Except Error Scan := do
  let scan ← scan.forgetKey
  let found ← blockScalar scan.indent? scan.cursor
  return scan.pushScalar false scan.mark found

def quoted (single : Bool) (scan : Scan) : Except Error Scan := do
  let scan ← scan.rememberKey
  let found ← quotedScalar single scan.cursor
  return scan.pushScalar false scan.mark found

def plain (scan : Scan) : Except Error Scan := do
  let scan ← scan.rememberKey
  let least := match scan.indent? with
    | some column => column + 1
    | none => 0
  let found ← plainScalar scan.inFlow least scan.cursor
  return scan.pushScalar true scan.mark found

def directive (scan : Scan) : Except Error Scan := do
  let scan ← (scan.close none).forgetKey
  let (directive, cursor) ← takeDirective scan.cursor
  return { (scan.allowKey false).push (.directive directive) scan.mark with cursor }

def isIndicator (c : Char) : Bool :=
  isFlowIndicator c || "-?:#&*!|>'\"%@".toList.contains c || c == '\x60'

def startsPlain (inFlow : Bool) : List Char → Bool
  | [] => false
  | c :: rest =>
    !(isIndicator c || isBlank c) || (c == '-' && !(rest.head?.any isBlank)) ||
      (!inFlow && (c == '?' || c == ':') && !endsWord rest)

def takeToken (scan : Scan) : Except Error Scan :=
  match scan.cursor.rest with
  | [] => scan.endStream
  | c :: rest =>
    if scan.mark.column == 0 && c == '%' then scan.directive
    else if scan.cursor.seesIndicator '-' then scan.documentIndicator .documentStart
    else if scan.cursor.seesIndicator '.' then scan.documentIndicator .documentEnd
    else if c == '[' then scan.openFlow .flowSequenceStart
    else if c == '\x7b' then scan.openFlow .flowMappingStart
    else if c == ']' then scan.closeFlow .flowSequenceEnd
    else if c == '\x7d' then scan.closeFlow .flowMappingEnd
    else if c == ',' then scan.flowEntry
    else if c == '-' && endsWord rest then scan.blockEntry
    else if c == '?' && (scan.inFlow || endsWord rest) then scan.explicitKey
    else if c == ':' && (scan.inFlow || endsWord rest) then scan.value
    else if c == '*' then scan.name .aliasName .aliasName
    else if c == '&' then scan.name .anchor .anchor
    else if c == '!' then scan.tag
    else if (c == '|' || c == '>') && !scan.inFlow then scan.block
    else if c == '\x27' then scan.quoted true
    else if c == '\x22' then scan.quoted false
    else if startsPlain scan.inFlow scan.cursor.rest then scan.plain
    else fail .nextToken scan.mark .noToken scan.mark

def next (scan : Scan) : Except Error Scan := do
  let scan ← (skipToToken (scan.cursor.rest.length + 1) scan).dropStaleKeys
  let scan ← (scan.close (some scan.mark.column)).takeToken
  scan.dropStaleKeys

-- The tokens in front of the first one that may still turn out to be a key. No other token is
-- seen before the one after it is found.
def settled (scan : Scan) : Array Token :=
  let possible := (scan.blockKey :: scan.flowKeys).filterMap id
  possible.foldl (fun tokens key => tokens.extract 0 key.number) scan.tokens

-- The tokens found before the end or before a fault. Each step takes a character at least.
def all : Nat → Scan → Array Token × Option Error
  | 0, scan => (scan.tokens, none)
  | fuel + 1, scan =>
    match scan.next with
    | .error error => (scan.settled, some error)
    | .ok scan =>
      if scan.tokens.back?.any fun token => token.kind == .streamEnd then (scan.tokens, none)
      else all fuel scan

end Scan

def isPrintable (c : Char) : Bool :=
  let n := c.toNat
  n == 0x9 || n == 0xa || n == 0xd || (0x20 ≤ n && n ≤ 0x7e) || n == 0x85 ||
    (0xa0 ≤ n && n ≤ 0xd7ff) || (0xe000 ≤ n && n ≤ 0xfffd) || 0x10000 ≤ n

def controlCharacter? (chars : List Char) : Option Error :=
  let before := chars.takeWhile isPrintable
  if before.length < chars.length then
    some ⟨.controlCharacter, ⟨String.utf8ByteSize (String.ofList before), 0, 0⟩, none⟩
  else none

def tokens (text : String) : List Token × Option Error :=
  let chars := text.toList
  match controlCharacter? chars with
  | some error => ([], some error)
  | none =>
    let (tokens, error) := Scan.all (chars.length + 2) (.ofText chars)
    (tokens.toList, error)

end BrowserFlow.Yaml
