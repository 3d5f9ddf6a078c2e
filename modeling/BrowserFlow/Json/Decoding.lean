import BrowserFlow.Json.Written
import BrowserFlow.Text.Lines
import BrowserFlow.Text.Shown
/-! Decoding values into records. A record is an object with named fields, or an array of its fields in
order. Fields that are not known are passed over; of several faults the first in the document counts. A
value may be given, stand in a text, or have been held back until its kind was known; what differs between
these is how a fault is placed and what is accepted at the edges. -/
set_option autoImplicit false

namespace BrowserFlow.Json

inductive Mismatch where
  | kind (found : Json) (expected : String)
  | range (found : Json) (expected : String)
  | length (found : Nat) (expected : String)
  | missing (field : String)
  | repeated (field : String)
  | variant (found : String) (known : List String)
  | notWord (found : Json)
  | bareWord
deriving Repr

inductive Cause where
  | syntactic (fault : SyntaxFault)
  | mismatched (mismatch : Mismatch)
deriving Repr

structure DecodeError where
  cause : Cause
  place : Option TextPlace
deriving Repr

def DecodeError.ofSyntax (error : SyntaxError) : DecodeError :=
  ⟨.syntactic error.fault, some error.place⟩

def DecodeError.unplaced (mismatch : Mismatch) : DecodeError :=
  ⟨.mismatched mismatch, none⟩

def DecodeError.settle (place : Option TextPlace) (error : DecodeError) : DecodeError :=
  ⟨error.cause, error.place.or place⟩

def orDecodeError {α : Type} (found : Except SyntaxError α) : Except DecodeError α :=
  found.mapError DecodeError.ofSyntax

inductive Source where
  | given (value : Json)
  | held (value : Json)
  | written (value : Written)

abbrev Decoder (α : Type) := Source → Except DecodeError α

def afterItem (rest : List Char) : List Char :=
  match skipSpace rest with
  | ']' :: rest => rest
  | ',' :: rest => skipSpace rest
  | rest => rest

def afterEntry (rest : List Char) : List Char :=
  match skipSpace rest with
  | '\x7d' :: rest => rest
  | rest => rest

def checkListEnd (rest : List Char) : Except SyntaxError Unit :=
  match skipSpace rest with
  | [] => .error (.ahead .endInList [])
  | ']' :: _ => .ok ()
  | ',' :: rest =>
    match skipSpace rest with
    | ']' :: rest => .error (.ahead .trailingComma (']' :: rest))
    | rest => .error (.ahead .trailingCharacters rest)
  | rest => .error (.ahead .trailingCharacters rest)

def takeColon (rest : List Char) : Except SyntaxError (List Char) :=
  match skipSpace rest with
  | ':' :: rest => .ok rest
  | [] => .error (.ahead .endInObject [])
  | rest => .error (.ahead .expectedColon rest)

def checkEntryEnd (rest : List Char) : Except SyntaxError Unit :=
  match skipSpace rest with
  | '\x7d' :: _ => .ok ()
  | [] => .error (.behind .endInObject [])
  | rest => .error (.behind .expectedValue rest)

structure Member where
  name : Except DecodeError String
  repetition : Option TextPlace
  value : Source

-- The parts of an array or object, what is wrong behind them, and the place behind its end.
structure Parts (α : Type) where
  parts : List α
  ending : Except DecodeError Unit
  closed : Option TextPlace

def Parts.whole {α : Type} (parts : List α) : Parts α :=
  ⟨parts, .ok (), none⟩

def Parts.ofWritten {α : Type} (parts : List α) (ending : Ending) : Parts α :=
  ⟨parts, orDecodeError ending.check,
    match ending with
    | .closed rest => some ⟨rest, 0⟩
    | .broken _ _ => none⟩

def Member.ofKey (key : Key) (value : Written) : Member :=
  ⟨orDecodeError key.name, some ⟨afterEntry key.rest, 0⟩, .written value⟩

namespace Source

def face : Source → Except DecodeError Json
  | given value => .ok value
  | held value => .ok value
  | written (.scalar _ reading _) => orDecodeError reading
  | written (.array _ _ _ _) => .ok (array [])
  | written (.object _ _ _ _) => .ok (object [])
  | written (.absent reading _) => orDecodeError (.error reading)

-- Where it is said that a value does not fit: behind it, and before arrays and objects.
def place : Source → Option TextPlace
  | written (.scalar _ _ (.ok rest)) => some ⟨rest, 0⟩
  | written (.array start _ _ _) => some ⟨start, 0⟩
  | written (.object start _ _ _) => some ⟨start, 0⟩
  | _ => none

def rest? : Source → Option (List Char)
  | written value => value.passed.toOption
  | _ => none

def isNull : Source → Bool
  | given value => value.isNull
  | held value => value.isNull
  | written (.scalar _ (.ok value) _) => value.isNull
  | _ => false

def refuse {α : Type} (source : Source) (mismatch : Mismatch) : Except DecodeError α :=
  .error ⟨.mismatched mismatch, source.place⟩

def mismatch {α : Type} (source : Source) (expected : String) : Except DecodeError α := do
  let found ← source.face
  source.refuse (.kind found expected)

def contents : Source → Except DecodeError Json
  | given value => .ok value
  | held value => .ok value
  | written value => orDecodeError value.contents

def passingFault? : Source → Option DecodeError
  | written value =>
    match value.passed with
    | .ok _ => none
    | .error error => some (.ofSyntax error)
  | _ => none

def items? : Source → Except DecodeError (Option (Parts Source))
  | given (array items) => .ok (some (.whole (items.map given)))
  | held (array items) => .ok (some (.whole (items.map held)))
  | written (.array start level items ending) => do
    orDecodeError (checkLevel start level)
    return some (.ofWritten (items.map written) ending)
  | _ => .ok none

def members? : Source → Except DecodeError (Option (Parts Member))
  | given (object entries) =>
    .ok (some (.whole (entries.map fun (name, value) => ⟨.ok name, none, given value⟩)))
  | held (object entries) =>
    .ok (some (.whole (entries.map fun (name, value) => ⟨.ok name, none, held value⟩)))
  | written (.object start level entries ending) => do
    orDecodeError (checkLevel start level)
    return some (.ofWritten (entries.map fun (key, value) => .ofKey key value) ending)
  | _ => .ok none

def depth : Source → Nat
  | given value => value.depth
  | held value => value.depth
  | written _ => jsonNestingLimit

def itemExit (source : Source) : Option TextPlace :=
  source.rest?.map fun rest => ⟨afterItem rest, 0⟩

def entryExit (source : Source) : Option TextPlace :=
  source.rest?.map fun rest => ⟨afterEntry rest, 0⟩

end Source

def decodeAny : Decoder Json := fun source =>
  source.contents.map merged

def decodeText : Decoder String := fun source => do
  match ← source.face with
  | string text => return text
  | found => source.refuse (.kind found "a string")

def decodeFlag : Decoder Bool := fun source => do
  match ← source.face with
  | bool flag => return flag
  | found => source.refuse (.kind found "a boolean")

-- Nothing. What was held back may also be an empty object.
def decodeUnit : Decoder Unit := fun source => do
  match source, ← source.face with
  | _, null => return
  | .held (object []), _ => return
  | _, found => source.refuse (.kind found "unit")

def decodeNatural (limit : Nat) (expected : String) : Decoder Nat := fun source => do
  match ← source.face with
  | integer value =>
    if 0 ≤ value && value < limit then return value.toNat
    else source.refuse (.range (integer value) expected)
  | found => source.refuse (.kind found expected)

def decodeWord : Decoder Nat :=
  decodeNatural (Number.twoTo 64) "u64"

def decodeIndex : Decoder Nat :=
  decodeNatural (Number.twoTo 64) "usize"

def decodeHalfWord : Decoder Nat :=
  decodeNatural (Number.twoTo 32) "u32"

def decodeOption {α : Type} (decode : Decoder α) : Decoder (Option α) := fun source =>
  if source.isNull then .ok none else (decode source).map some

def decodeItems {α : Type} (decode : Decoder α) : List Source → Except DecodeError (List α)
  | [] => .ok []
  | item :: rest => do
    let first ← (decode item).mapError (DecodeError.settle item.itemExit)
    let rest ← decodeItems decode rest
    return first :: rest

def decodeList {α : Type} (decode : Decoder α) : Decoder (List α) := fun source => do
  match ← source.items? with
  | some items => do
    let found ← decodeItems decode items.parts
    items.ending
    return found
  | none => source.mismatch "a sequence"

def decodePairs {α : Type} (decode : Decoder α) : List Member → Except DecodeError (Entries α)
  | [] => .ok []
  | member :: rest => do
    let name ← member.name
    let value ← (decode member.value).mapError (DecodeError.settle member.value.entryExit)
    let rest ← decodePairs decode rest
    return (name, value) :: rest

-- A table. Of the values of a repeated key the last one counts, but all have to decode.
def decodeTable {α : Type} (decode : Decoder α) : Decoder (Entries α) := fun source => do
  match ← source.members? with
  | some members => do
    let found ← decodePairs decode members.parts
    members.ending
    return Entries.merge found
  | none => source.mismatch "a map"

-- A field of a record: its number in the document, its value, and where a fault of the value is
-- placed that has no place of its own.
structure Slot where
  name : String
  number : Nat
  value : Source
  exit : Option TextPlace

structure Slots where
  slots : List Slot
  size : Nat
  missing : String → DecodeError

-- A reader of some fields; an error comes with its number in the document.
def Fields (α : Type) := Slots → Except (Nat × DecodeError) α

-- Two readers side by side; of two errors the first in the document counts.
def Fields.both {α β : Type} (f : Fields (α → β)) (x : Fields α) : Fields β := fun slots =>
  match f slots, x slots with
  | .ok f, .ok x => .ok (f x)
  | .error error, .ok _ => .error error
  | .ok _, .error error => .error error
  | .error first, .error second => .error (if second.1 < first.1 then second else first)

instance : Applicative Fields where
  pure value := fun _ => .ok value
  seq f x := Fields.both f (x ())

def Slots.find? (slots : Slots) (name : String) : Option Slot :=
  slots.slots.find? fun slot => slot.name == name

def Slot.decode {α : Type} (decode : Decoder α) (slot : Slot) : Except (Nat × DecodeError) α :=
  (decode slot.value).mapError fun error =>
    (slot.number, error.settle slot.exit)

def required {α : Type} (name : String) (decode : Decoder α) : Fields α := fun slots =>
  match slots.find? name with
  | some slot => slot.decode decode
  | none => .error (slots.size + 1, slots.missing name)

def defaulted {α : Type} (name : String) (absent : α) (decode : Decoder α) : Fields α :=
  fun slots =>
    match slots.find? name with
    | some slot => slot.decode decode
    | none => .ok absent

def optional {α : Type} (name : String) (decode : Decoder α) : Fields (Option α) :=
  defaulted name none (decodeOption decode)

def Fields.read {α : Type} (fields : Fields α) (slots : Slots)
    (stray : Option (Nat × DecodeError)) : Except DecodeError α :=
  match fields slots, stray with
  | .ok value, none => .ok value
  | .ok _, some fault => .error fault.2
  | .error error, none => .error error.2
  | .error error, some fault => .error (if fault.1 < error.1 then fault.2 else error.2)

def memberSlots (number : Nat) : List Member → List Slot
  | [] => []
  | ⟨.ok name, _, value⟩ :: rest =>
    ⟨name, number, value, value.entryExit⟩ :: memberSlots (number + 1) rest
  | _ :: rest => memberSlots (number + 1) rest

-- The first fault of an object beside its fields: a broken key, a repeated field, or a fault in
-- what is passed over. `seen` holds the fields before.
def memberStray? (names seen : List String) (number : Nat) :
    List Member → Option (Nat × DecodeError)
  | [] => none
  | member :: rest =>
    match member.name with
    | .error error => some (number, error)
    | .ok name =>
      if names.contains name then
        if seen.contains name then
          some (number, ⟨.mismatched (.repeated name), member.repetition⟩)
        else memberStray? names (name :: seen) (number + 1) rest
      else
        match member.value.passingFault? with
        | some error => some (number, error)
        | none => memberStray? names seen (number + 1) rest

def endingStray? (number : Nat) : Except DecodeError Unit → Option (Nat × DecodeError)
  | .ok _ => none
  | .error error => some (number, error)

def readMembers {α : Type} (names : List String) (fields : Fields α) (members : Parts Member) :
    Except DecodeError α :=
  let size := members.parts.length
  fields.read
    ⟨memberSlots 0 members.parts, size, fun name =>
      ⟨.mismatched (.missing name), members.closed⟩⟩
    ((memberStray? names [] 0 members.parts).or (endingStray? size members.ending))

def itemSlots (number : Nat) : List String → List Source → List Slot
  | name :: names, item :: items =>
    ⟨name, number, item, item.itemExit⟩ :: itemSlots (number + 1) names items
  | _, _ => []

def counted (count : Nat) (thing : String) : String :=
  Text.ofNat count ++ " " ++ thing ++ if count = 1 then "" else "s"

def checkExcess (names : List String) (source : Source) (items : Parts Source) :
    Except DecodeError Unit :=
  if items.parts.length < names.length then items.ending
  else
    match source with
    | .given _ =>
      if names.length < items.parts.length then
        .error (.unplaced (.length items.parts.length "fewer elements in array"))
      else .ok ()
    | .held _ =>
      if names.length < items.parts.length then
        .error (.unplaced (.length items.parts.length
          (counted names.length "element" ++ " in sequence")))
      else .ok ()
    | .written _ =>
      match ((items.parts.take names.length).getLast?).bind Source.rest? with
      | some rest => orDecodeError (checkListEnd rest)
      | none => items.ending

def readItems {α : Type} (expected : String) (names : List String) (fields : Fields α)
    (source : Source) (items : Parts Source) : Except DecodeError α :=
  let size := min names.length items.parts.length
  let wanted := expected ++ " with " ++ counted names.length "element"
  fields.read
    ⟨itemSlots 0 names items.parts, size, fun name =>
      ⟨.mismatched (.length (names.idxOf name) wanted), items.closed⟩⟩
    (endingStray? size (checkExcess names source items))

def record {α : Type} (expected : String) (names : List String) (fields : Fields α) : Decoder α :=
  fun source => do
    match ← source.members?, ← source.items? with
    | some members, _ => readMembers names fields members
    | none, some items => readItems expected names fields source items
    | none, none => source.mismatch expected

-- One of some words. What was held back may also be the number of a word.
def decodeName (names : List String) : Decoder String := fun source => do
  match source, ← source.face with
  | _, string name =>
    if names.contains name then return name else source.refuse (.variant name names)
  | .held _, integer number =>
    if number < 0 || Number.twoTo 64 ≤ number then
      source.refuse (.kind (integer number) "variant identifier")
    else
      match names[number.toNat]? with
      | some name => return name
      | none =>
        source.refuse (.range (integer number)
          ("variant index 0 <= i < " ++ Text.ofNat names.length))
  | _, found => source.refuse (.kind found "variant identifier")

inductive Choice (α : Type) where
  | plain (value : α)
  | carrying (decode : Decoder α)

def Choice.read {α : Type} (choice : Choice α) (payload : Option Source) :
    Except DecodeError α :=
  match choice, payload with
  | plain value, none => .ok value
  | plain value, some source => (decodeUnit source).map fun _ => value
  | carrying decode, some source => decode source
  | carrying _, none => .error (.unplaced .bareWord)

def choose {α : Type} (choices : List (String × Choice α)) (word : Source)
    (payload : Option Source) : Except DecodeError α := do
  let name ← decodeName (choices.map Prod.fst) word
  match Entries.find? name choices with
  | some choice => choice.read payload
  | none => word.refuse (.variant name (choices.map Prod.fst))

def chooseByValue {α : Type} (choices : List (String × Choice α)) (wrap : Json → Source) :
    Json → Except DecodeError α
  | string word => choose choices (wrap (string word)) none
  | object [(word, payload)] => choose choices (wrap (string word)) (some (wrap payload))
  | object _ => .error (.unplaced (.range (object []) "map with a single key"))
  | other => .error (.unplaced (.notWord other))

def chooseInText {α : Type} (choices : List (String × Choice α)) :
    Written → Except DecodeError α
  | .scalar ('\x22' :: rest) reading passing =>
    choose choices (.written (.scalar ('\x22' :: rest) reading passing)) none
  | .scalar start _ _ => orDecodeError (.error (.ahead .expectedValue start))
  | .array start _ _ _ => orDecodeError (.error (.ahead .expectedValue start))
  | .object start level _ _ => do
    orDecodeError (checkLevel start level)
    let word := Written.within level start.tail
    let name ← decodeName (choices.map Prod.fst) (.written word)
    let payload := Written.within level (← orDecodeError (word.passed.bind takeColon))
    let value ← choose choices (.given (string name)) (some (.written payload))
    orDecodeError (payload.passed.bind checkEntryEnd)
    return value
  | .absent reading _ => orDecodeError (.error reading)

def decodeChoice {α : Type} (choices : List (String × Choice α)) : Decoder α
  | .given value => chooseByValue choices .given value
  | .held value => chooseByValue choices .held value
  | .written value => chooseInText choices value

def decodeWordOf {α : Type} (words : List (String × α)) : Decoder α :=
  decodeChoice (words.map fun (word, value) => (word, .plain value))

abbrev kindName : String := "kind"

def splitKind (names : List String) (kind : Option String) :
    List Member → Except DecodeError (Option String × List (String × Json))
  | [] => .ok (kind, [])
  | member :: rest => do
    let name ← member.name
    if name = kindName then
      if kind.isSome then .error ⟨.mismatched (.repeated kindName), member.repetition⟩
      else do
        let found ← (decodeName names member.value).mapError
          (DecodeError.settle member.value.entryExit)
        splitKind names (some found) rest
    else do
      let value ← member.value.contents
      let (kind, others) ← splitKind names kind rest
      return (kind, (name, value) :: others)

def missingKind {α : Type} (place : Option TextPlace) : Except DecodeError α :=
  .error ⟨.mismatched (.missing kindName), place⟩

def takeKind (expected : String) (names : List String) (source : Source) :
    Except DecodeError (String × Json) := do
  match ← source.members?, ← source.items? with
  | some members, _ => do
    let (kind, others) ← splitKind names none members.parts
    members.ending
    match kind with
    | some kind => return (kind, object others)
    | none => missingKind members.closed
  | none, some items =>
    match items.parts with
    | [] => do
      items.ending
      missingKind items.closed
    | first :: rest => do
      let kind ← (decodeName names first).mapError (DecodeError.settle first.itemExit)
      let others ← rest.mapM Source.contents
      items.ending
      return (kind, array others)
  | none, none => source.mismatch expected

-- A record whose field `kind` says what its other fields are. They are held back until the whole
-- record has been read.
def decodeKinds {α : Type} (expected : String) (variants : List (String × Decoder α)) :
    Decoder α := fun source => do
  let (kind, others) ← takeKind expected (variants.map Prod.fst) source
  match Entries.find? kind variants with
  | some decode => decode (.held others)
  | none => .error (.unplaced (.variant kind (variants.map Prod.fst)))

def decodeDocument {α : Type} (decode : Decoder α) (text : String) : Except DecodeError α := do
  let written := Written.ofText text
  let value ← decode (.written written)
  orDecodeError written.checkEnd
  return value

open Number Text

def shown : Json → String
  | null => "null"
  | bool true => "boolean `true`"
  | bool false => "boolean `false`"
  | integer value => "integer `" ++ Text.ofInt value ++ "`"
  | float value => "floating point `" ++ value.text documentLayout ++ "`"
  | string text => "string " ++ Text.shown text
  | array _ => "sequence"
  | object _ => "map"

def quoted (word : String) : String :=
  "`" ++ word ++ "`"

def oneOf : List String → String
  | [] => "nothing"
  | [word] => quoted word
  | [first, second] => quoted first ++ " or " ++ quoted second
  | words => "one of " ++ joinWith ", " (words.map quoted)

def Mismatch.message : Mismatch → String
  | kind found expected => "invalid type: " ++ shown found ++ ", expected " ++ expected
  | range found expected => "invalid value: " ++ shown found ++ ", expected " ++ expected
  | length found expected => "invalid length " ++ Text.ofNat found ++ ", expected " ++ expected
  | missing field => "missing field " ++ quoted field
  | repeated field => "duplicate field " ++ quoted field
  | notWord found => "invalid type: " ++ shown found ++ ", expected string or map"
  | variant found known => "unknown variant " ++ quoted found ++ ", expected " ++ oneOf known
  | bareWord => "invalid type: unit variant, expected newtype variant"

def Cause.message : Cause → String
  | syntactic fault => fault.message
  | mismatched mismatch => mismatch.message

def DecodeError.message (error : DecodeError) : String :=
  error.cause.message

def DecodeError.messageIn (error : DecodeError) (text : String) : String :=
  match error.place with
  | some place => error.message ++ " at " ++ (place.position text).text
  | none => error.message

end BrowserFlow.Json
