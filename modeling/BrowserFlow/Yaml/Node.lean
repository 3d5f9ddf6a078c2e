import BrowserFlow.Entries
import BrowserFlow.Yaml.Token
/-! The nodes of a document: scalars, sequences and mappings with their tags and anchors, and aliases. A
document that goes wrong somewhere still has the nodes before that place. -/
set_option autoImplicit false

namespace BrowserFlow.Yaml

inductive Break where
  | malformed (error : Error)
  | unknownAnchor (mark : Mark)
deriving DecidableEq, Repr

structure Properties where
  anchor : Option Nat
  tag : Option Octets
  mark : Mark
deriving DecidableEq, Repr, Inhabited

inductive Node where
  | scalar (properties : Properties) (plain : Bool) (text : String)
  | sequence (properties : Properties) (items : List Node)
  | mapping (properties : Properties) (entries : List (Node × Node))
  | aliasOf (anchor : Nat) (mark : Mark)
  | broken (cause : Break)
deriving Repr, Inhabited

-- The tokens that are left and the fault behind them, what handles stand for, and the numbers of
-- the anchors so far.
structure Reader where
  tokens : List Token
  fault : Option Error
  handles : Entries Octets
  anchors : Entries Nat

-- Something that was read, and the reader behind it unless the document went wrong.
abbrev Reading (α : Type) := α × Option Reader

def brokenNode (cause : Break) : Reading Node :=
  (.broken cause, none)

def brokenItems (cause : Break) : Reading (List Node) :=
  ([.broken cause], none)

def brokenEntries (cause : Break) : Reading (List (Node × Node)) :=
  ([(.broken cause, .broken cause)], none)

def breakBy (activity : Activity) (start : Mark) (fault : Fault) (mark : Mark) : Break :=
  .malformed ⟨fault, mark, some (activity, start)⟩

def unreadNode : Reading Node :=
  brokenNode (.unknownAnchor .start)

def Node.absent : Node :=
  .scalar ⟨none, none, .start⟩ true ""

namespace Reader

def peek (reader : Reader) : Except Break Token :=
  match reader.tokens, reader.fault with
  | token :: _, _ => .ok token
  | [], some error => .error (.malformed error)
  | [], none => .ok ⟨.streamEnd, .start⟩

def skip (reader : Reader) : Reader :=
  { reader with tokens := reader.tokens.tail }

def leaveOut (reader : Reader) : Reading Node :=
  (.absent, some reader)

-- Numbers an anchor. The number says how many names there were; a name that is given again can
-- share it with the next one.
def addAnchor (name : String) (reader : Reader) : Reader :=
  { reader with anchors := reader.anchors.insert name reader.anchors.length }

def expand? (reader : Reader) (tag : Tag) : Option Octets :=
  if tag.handle.isEmpty then some tag.rest
  else (Entries.find? tag.handle reader.handles).map fun meaning => meaning ++ tag.rest

def takeProperties (reader : Reader) :
    Except Break (Option String × Option (Tag × Mark) × Reader) := do
  let first ← reader.peek
  match first.kind with
  | .anchor name => do
    let second ← reader.skip.peek
    match second.kind with
    | .tag tag => return (some name, some (tag, second.mark), reader.skip.skip)
    | _ => return (some name, none, reader.skip)
  | .tag tag => do
    let second ← reader.skip.peek
    match second.kind with
    | .anchor name => return (some name, some (tag, first.mark), reader.skip.skip)
    | _ => return (none, some (tag, first.mark), reader.skip)
  | _ => return (none, none, reader)

def properties (reader : Reader) : Except Break (Properties × Token × Reader) := do
  let start := (← reader.peek).mark
  let (name, tag, reader) ← reader.takeProperties
  let token ← reader.peek
  let (anchor, reader) := match name with
    | some name => (some reader.anchors.length, reader.addAnchor name)
    | none => (none, reader)
  match tag with
  | none => return (⟨anchor, none, start⟩, token, reader)
  | some (tag, mark) =>
    match reader.expand? tag with
    | some octets => return (⟨anchor, some octets, start⟩, token, reader)
    | none => .error (breakBy .node start .undefinedTagHandle mark)

def readAlias (name : String) (mark : Mark) (reader : Reader) : Reading Node :=
  match Entries.find? name reader.anchors with
  | some anchor => (.aliasOf anchor mark, some reader.skip)
  | none => brokenNode (.unknownAnchor mark)

end Reader

def Properties.written (properties : Properties) : Properties :=
  if properties.tag == some Tag.unspecific.rest then { properties with tag := none }
  else properties

def endsEntry : TokenKind → Bool
  | .key => true
  | .value => true
  | .blockEnd => true
  | _ => false

def endsItem (kind : TokenKind) : Bool :=
  kind == .blockEntry || kind == .blockEnd

def endsIndentless (kind : TokenKind) : Bool :=
  kind == .blockEntry || endsEntry kind

def endsFlowValue (closing kind : TokenKind) : Bool :=
  kind == .flowEntry || kind == closing

def endsFlowKey (closing kind : TokenKind) : Bool :=
  kind == .value || endsFlowValue closing kind

namespace Reader

-- The token that an entry inside brackets or braces starts with; none before the closing one. A
-- comma stands between two entries.
def flowEntry (closing : TokenKind) (activity : Activity) (start : Mark) (fault : Fault)
    (first : Bool) (reader : Reader) : Except Break (Option Token × Reader) := do
  let token ← reader.peek
  if token.kind == closing then return (none, reader)
  else if first then return (some token, reader)
  else if token.kind != .flowEntry then .error (breakBy activity start fault token.mark)
  else
    let token ← reader.skip.peek
    return (if token.kind == closing then none else some token, reader.skip)

def leaveOutNext (reader : Reader) : Reading Node :=
  match reader.peek with
  | .error cause => brokenNode cause
  | .ok _ => reader.leaveOut

end Reader

mutual

-- A node: an alias, or properties and a scalar or collection. `block` lets block collections
-- stand here, `indentless` also a sequence that is not indented.
def readNode (block indentless : Bool) (fuel : Nat) (reader : Reader) : Reading Node :=
  match fuel with
  | 0 => unreadNode
  | fuel + 1 =>
    match reader.peek with
    | .error cause => brokenNode cause
    | .ok ⟨.aliasName name, mark⟩ => reader.readAlias name mark
    | .ok _ =>
      match reader.properties with
      | .error cause => brokenNode cause
      | .ok (properties, token, reader) =>
        readContent block indentless fuel properties token reader
termination_by structural fuel

def readContent (block indentless : Bool) (fuel : Nat) (properties : Properties) (token : Token)
    (reader : Reader) : Reading Node :=
  match fuel with
  | 0 => unreadNode
  | fuel + 1 =>
    match token.kind, block, indentless with
    | .scalar plain text, _, _ =>
      (.scalar properties.written plain text, some reader.skip)
    | .flowSequenceStart, _, _ =>
      let (items, after) := readFlowItems token.mark true fuel reader.skip
      (.sequence properties items, after)
    | .flowMappingStart, _, _ =>
      let (entries, after) := readFlowEntries token.mark true fuel reader.skip
      (.mapping properties entries, after)
    | .blockEntry, _, true =>
      let (items, after) := readIndentless fuel reader
      (.sequence properties items, after)
    | .blockSequenceStart, true, _ =>
      let (items, after) := readBlockItems token.mark fuel reader.skip
      (.sequence properties items, after)
    | .blockMappingStart, true, _ =>
      let (entries, after) := readBlockEntries token.mark fuel reader.skip
      (.mapping properties entries, after)
    | _, _, _ =>
      if properties.anchor.isSome || properties.tag.isSome then
        (.scalar properties true "", some reader)
      else
        brokenNode (breakBy (if block then .blockNode else .flowNode) properties.mark
          .missingContent token.mark)
termination_by structural fuel

def readPart (block indentless : Bool) (ends : TokenKind → Bool) (fuel : Nat)
    (reader : Reader) : Reading Node :=
  match fuel with
  | 0 => unreadNode
  | fuel + 1 =>
    match reader.peek with
    | .error cause => brokenNode cause
    | .ok token =>
      if ends token.kind then reader.leaveOut else readNode block indentless fuel reader
termination_by structural fuel

def readValue (block : Bool) (ends : TokenKind → Bool) (fuel : Nat) (behind : Option Reader) :
    Reading Node :=
  match fuel, behind with
  | 0, _ => unreadNode
  | _, none => (.absent, none)
  | fuel + 1, some reader =>
    match reader.peek with
    | .error cause => brokenNode cause
    | .ok token =>
      if token.kind == .value then readPart block block ends fuel reader.skip
      else reader.leaveOut
termination_by structural fuel

def readBlockItems (start : Mark) (fuel : Nat) (reader : Reader) : Reading (List Node) :=
  match fuel with
  | 0 => ([], none)
  | fuel + 1 =>
    match reader.peek with
    | .error cause => brokenItems cause
    | .ok ⟨.blockEnd, _⟩ => ([], some reader.skip)
    | .ok ⟨.blockEntry, _⟩ =>
      match readPart true false endsItem fuel reader.skip with
      | (item, none) => ([item], none)
      | (item, some reader) =>
        let (items, after) := readBlockItems start fuel reader
        (item :: items, after)
    | .ok token => brokenItems (breakBy .blockCollection start .missingEntry token.mark)
termination_by structural fuel

def readIndentless (fuel : Nat) (reader : Reader) : Reading (List Node) :=
  match fuel with
  | 0 => ([], none)
  | fuel + 1 =>
    match reader.peek with
    | .error cause => brokenItems cause
    | .ok ⟨.blockEntry, _⟩ =>
      match readPart true false endsIndentless fuel reader.skip with
      | (item, none) => ([item], none)
      | (item, some reader) =>
        let (items, after) := readIndentless fuel reader
        (item :: items, after)
    | .ok _ => ([], some reader)
termination_by structural fuel

def readBlockEntries (start : Mark) (fuel : Nat) (reader : Reader) :
    Reading (List (Node × Node)) :=
  match fuel with
  | 0 => ([], none)
  | fuel + 1 =>
    match reader.peek with
    | .error cause => brokenEntries cause
    | .ok ⟨.blockEnd, _⟩ => ([], some reader.skip)
    | .ok ⟨.key, _⟩ =>
      let (key, behind) := readPart true true endsEntry fuel reader.skip
      match readValue true endsEntry fuel behind with
      | (value, none) => ([(key, value)], none)
      | (value, some reader) =>
        let (entries, after) := readBlockEntries start fuel reader
        ((key, value) :: entries, after)
    | .ok token => brokenEntries (breakBy .blockMapping start .missingKey token.mark)
termination_by structural fuel

def readFlowItems (start : Mark) (first : Bool) (fuel : Nat) (reader : Reader) :
    Reading (List Node) :=
  match fuel with
  | 0 => ([], none)
  | fuel + 1 =>
    match reader.flowEntry .flowSequenceEnd .flowSequence start .missingSequenceEnd first with
    | .error cause => brokenItems cause
    | .ok (none, reader) => ([], some reader.skip)
    | .ok (some token, reader) =>
      let found :=
        if token.kind == .key then readFlowPair token.mark fuel reader.skip
        else readNode false false fuel reader
      match found with
      | (item, none) => ([item], none)
      | (item, some reader) =>
        let (items, after) := readFlowItems start false fuel reader
        (item :: items, after)
termination_by structural fuel

def readFlowPair (mark : Mark) (fuel : Nat) (reader : Reader) : Reading Node :=
  match fuel with
  | 0 => unreadNode
  | fuel + 1 =>
    let (key, behind) := readFlowKey fuel reader
    let (value, behind) := readValue false (endsFlowValue .flowSequenceEnd) fuel behind
    let pair (more : List (Node × Node)) := Node.mapping ⟨none, none, mark⟩ ((key, value) :: more)
    match behind with
    | none => (pair [], none)
    | some reader =>
      match reader.peek with
      | .error cause => (pair (brokenEntries cause).1, none)
      | .ok _ => (pair [], some reader)
termination_by structural fuel

def readFlowKey (fuel : Nat) (reader : Reader) : Reading Node :=
  match fuel with
  | 0 => unreadNode
  | fuel + 1 =>
    match reader.peek with
    | .error cause => brokenNode cause
    | .ok token =>
      if endsFlowKey .flowSequenceEnd token.kind then reader.skip.leaveOut
      else readNode false false fuel reader
termination_by structural fuel

def readFlowEntries (start : Mark) (first : Bool) (fuel : Nat) (reader : Reader) :
    Reading (List (Node × Node)) :=
  match fuel with
  | 0 => ([], none)
  | fuel + 1 =>
    match reader.flowEntry .flowMappingEnd .flowMapping start .missingMappingEnd first with
    | .error cause => brokenEntries cause
    | .ok (none, reader) => ([], some reader.skip)
    | .ok (some token, reader) =>
      let (key, behind) :=
        if token.kind == .key then
          readPart false false (endsFlowKey .flowMappingEnd) fuel reader.skip
        else readNode false false fuel reader
      let found :=
        if token.kind == .key then
          readValue false (endsFlowValue .flowMappingEnd) fuel behind
        else
          match behind with
          | none => (.absent, none)
          | some reader => reader.leaveOutNext
      match found with
      | (value, none) => ([(key, value)], none)
      | (value, some reader) =>
        let (entries, after) := readFlowEntries start false fuel reader
        ((key, value) :: entries, after)
termination_by structural fuel

end

namespace Node

def named (properties : Properties) (node : Node) : List (Nat × Node) :=
  match properties.anchor with
  | some number => [(number, node)]
  | none => []

mutual

def anchored (node : Node) : List (Nat × Node) :=
  match node with
  | scalar properties plain text => named properties (.scalar properties plain text)
  | sequence properties items =>
    named properties (.sequence properties items) ++ anchoredItems items
  | mapping properties entries =>
    named properties (.mapping properties entries) ++ anchoredEntries entries
  | aliasOf _ _ => []
  | broken _ => []
termination_by structural node

def anchoredItems (items : List Node) : List (Nat × Node) :=
  match items with
  | [] => []
  | item :: rest => anchored item ++ anchoredItems rest
termination_by structural items

def anchoredEntries (entries : List (Node × Node)) : List (Nat × Node) :=
  match entries with
  | [] => []
  | (key, value) :: rest => anchored key ++ anchored value ++ anchoredEntries rest
termination_by structural entries

end

mutual

def size (node : Node) : Nat :=
  match node with
  | scalar _ _ _ => 1
  | sequence _ items => itemsSize items + 2
  | mapping _ entries => entriesSize entries + 2
  | aliasOf _ _ => 1
  | broken _ => 0
termination_by structural node

def itemsSize (items : List Node) : Nat :=
  match items with
  | [] => 0
  | item :: rest => size item + itemsSize rest
termination_by structural items

def entriesSize (entries : List (Node × Node)) : Nat :=
  match entries with
  | [] => 0
  | (key, value) :: rest => size key + size value + entriesSize rest
termination_by structural entries

end

end Node

end BrowserFlow.Yaml
