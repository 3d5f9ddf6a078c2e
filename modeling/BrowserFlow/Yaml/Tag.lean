import BrowserFlow.Json.Scalar
import BrowserFlow.Yaml.Mark
/-! Tags of a YAML text, and the directives that give its version and the handles of its tags. A tag is a
row of octets, each of which may be written as `%` and two digits. -/
set_option autoImplicit false

namespace BrowserFlow.Yaml

abbrev Octets := List UInt8

def octetsOf (chars : List Char) : Octets :=
  chars.map fun c => UInt8.ofNat c.toNat

structure Tag where
  handle : String
  rest : Octets
deriving DecidableEq, Repr, Inhabited

inductive Directive where
  | version (major minor : Nat)
  | handle (name : String) (meaning : Octets)
deriving DecidableEq, Repr, Inhabited

def isNameChar (c : Char) : Bool :=
  Text.continuesIdentifier c || c == '-'

def takeOctet (activity : Activity) (start : Mark) (cursor : Cursor) :
    Except Error (Nat × Cursor) :=
  match cursor.rest with
  | '%' :: high :: low :: _ =>
    match Json.hexValue? high, Json.hexValue? low with
    | some high, some low => .ok (high * 16 + low, cursor.skipMany 3)
    | _, _ => fail activity start .missingOctet cursor.mark
  | _ => fail activity start .missingOctet cursor.mark

def followers? (octet : Nat) : Option Nat :=
  if octet < 0x80 then some 0
  else if octet < 0xc0 then none
  else if octet < 0xe0 then some 1
  else if octet < 0xf0 then some 2
  else if octet < 0xf8 then some 3
  else none

def takeFollowers (activity : Activity) (start : Mark) : Nat → Cursor →
    Except Error (Octets × Cursor)
  | 0, cursor => .ok ([], cursor)
  | count + 1, cursor => do
    let (octet, after) ← takeOctet activity start cursor
    if octet < 0x80 || 0xc0 ≤ octet then fail activity start .wrongNextOctet cursor.mark
    else
      let (octets, after) ← takeFollowers activity start count after
      return (UInt8.ofNat octet :: octets, after)

def takeOctets (activity : Activity) (start : Mark) (cursor : Cursor) :
    Except Error (Octets × Cursor) := do
  let (octet, after) ← takeOctet activity start cursor
  match followers? octet with
  | none => fail activity start .wrongFirstOctet cursor.mark
  | some count =>
    let (octets, after) ← takeFollowers activity start count after
    return (UInt8.ofNat octet :: octets, after)

def isUriChar (between : Bool) (c : Char) : Bool :=
  isNameChar c || ";/?:@&=+$.%!~*'()".toList.contains c || (between && ",[]".toList.contains c)

def takeUriChars (between : Bool) (activity : Activity) (start : Mark) : Nat → Cursor →
    Except Error (Octets × Cursor)
  | 0, cursor => .ok ([], cursor)
  | fuel + 1, cursor =>
    match cursor.rest with
    | [] => .ok ([], cursor)
    | c :: _ =>
      if !isUriChar between c then .ok ([], cursor)
      else do
        let (first, cursor) ←
          if c == '%' then takeOctets activity start cursor
          else .ok (octetsOf [c], cursor.skip)
        let (rest, cursor) ← takeUriChars between activity start fuel cursor
        return (first ++ rest, cursor)

def takeUri (between needed : Bool) (activity : Activity) (start : Mark) (cursor : Cursor) :
    Except Error (Octets × Cursor) := do
  let (octets, cursor) ← takeUriChars between activity start (cursor.rest.length + 1) cursor
  if needed && octets.isEmpty then fail activity start .missingUri cursor.mark
  else return (octets.takeWhile (· ≠ 0), cursor)

def takeHandle (cursor : Cursor) : List Char × Cursor :=
  let name := cursor.rest.tail.takeWhile isNameChar
  let cursor := cursor.skipMany (name.length + 1)
  if cursor.sees (· == '!') then (name ++ ['!'], cursor.skip) else (name, cursor)

def Tag.unspecific : Tag := ⟨"", octetsOf ['!']⟩

def takeTagBody (start : Mark) (cursor : Cursor) : Except Error (Tag × Cursor) :=
  match cursor.rest with
  | '!' :: '<' :: _ => do
    let (octets, cursor) ← takeUri true true .tagUri start (cursor.skipMany 2)
    if cursor.sees (· == '>') then return (⟨"", octets⟩, cursor.skip)
    else fail .tag start .missingAngle cursor.mark
  | _ => do
    let (name, cursor) := takeHandle cursor
    if name.getLast? == some '!' then
      let (octets, cursor) ← takeUri false true .tagUri start cursor
      return (⟨String.ofList ('!' :: name), octets⟩, cursor)
    else
      let (octets, cursor) ← takeUri false false .tagUri start cursor
      let octets := octetsOf name ++ octets
      return (if octets.isEmpty then Tag.unspecific else ⟨"!", octets⟩, cursor)

def takeTag (inFlow : Bool) (cursor : Cursor) : Except Error (Tag × Cursor) := do
  let start := cursor.mark
  let (tag, cursor) ← takeTagBody start cursor
  if endsWord cursor.rest || (inFlow && cursor.sees (· == ',')) then return (tag, cursor)
  else fail .tag start .missingBlankOrBreak cursor.mark

def versionDigits : Nat := 9

def takeVersionNumber (start : Mark) (cursor : Cursor) : Except Error (Nat × Cursor) :=
  let digits := cursor.rest.takeWhile Text.isDigit
  if digits.isEmpty then fail .versionDirective start .missingVersion cursor.mark
  else if versionDigits < digits.length then
    fail .versionDirective start .longVersion (cursor.skipMany versionDigits).mark
  else .ok (Text.digitsValue digits, cursor.skipMany digits.length)

def takeVersion (start : Mark) (cursor : Cursor) : Except Error (Directive × Cursor) := do
  let (major, cursor) ← takeVersionNumber start (cursor.skipWhile isBlank)
  if cursor.sees (· == '.') then
    let (minor, cursor) ← takeVersionNumber start cursor.skip
    return (.version major minor, cursor)
  else fail .versionDirective start .missingVersionPoint cursor.mark

def takeMeaning (start : Mark) (cursor : Cursor) : Except Error (Directive × Cursor) := do
  let cursor := cursor.skipWhile isBlank
  if !cursor.sees (· == '!') then fail .handle start .missingExclamation cursor.mark
  else
    let (name, cursor) := takeHandle cursor
    if !name.isEmpty && name.getLast? != some '!' then
      fail .handleEnd start .missingExclamation cursor.mark
    else if !cursor.sees isBlank then fail .tagDirective start .missingBlank cursor.mark
    else
      let (meaning, cursor) ← takeUri true true .tagPrefix start (cursor.skipWhile isBlank)
      if endsWord cursor.rest then return (.handle (String.ofList ('!' :: name)) meaning, cursor)
      else fail .tagDirective start .missingBlankOrBreak cursor.mark

def takeLineEnd (start : Mark) (cursor : Cursor) : Except Error Cursor :=
  let cursor := (cursor.skipWhile isBlank).skipComment
  if cursor.atEnd then .ok cursor
  else if cursor.sees isBreak then .ok cursor.takeBreak.2
  else fail .directive start .missingLineBreak cursor.mark

def takeDirective (cursor : Cursor) : Except Error (Directive × Cursor) := do
  let start := cursor.mark
  let name := cursor.rest.tail.takeWhile isNameChar
  let cursor := cursor.skipMany (name.length + 1)
  if name.isEmpty then fail .directive start .missingDirectiveName cursor.mark
  else if !endsWord cursor.rest then fail .directive start .strangeDirectiveName cursor.mark
  else
    let (directive, cursor) ←
      if name == "YAML".toList then takeVersion start cursor
      else if name == "TAG".toList then takeMeaning start cursor
      else fail .directive start .unknownDirective cursor.mark
    let cursor ← takeLineEnd start cursor
    return (directive, cursor)

end BrowserFlow.Yaml
