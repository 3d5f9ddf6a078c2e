import BrowserFlow.Text.Shown
import BrowserFlow.Yaml.Node
import BrowserFlow.Yaml.Plain
/-! The value of a YAML text. A text holds one document; nothing at all is null. A key that stands twice in
a mapping keeps its first place and its last value. Of several faults the first in the document counts, an
alias standing for the node of its anchor. -/
set_option autoImplicit false

namespace BrowserFlow.Yaml

inductive PathStep where
  | item (index : Nat)
  | entry (key : String)
  | unnamed
deriving DecidableEq, Repr

-- The steps to a node, the last one first.
abbrev NodePath := List PathStep

mutual

def NodePath.text (path : NodePath) : String :=
  match path with
  | [] => "."
  | .item index :: parent => NodePath.text parent ++ "[" ++ Text.ofNat index ++ "]"
  | .entry key :: parent => NodePath.lead parent ++ key
  | .unnamed :: parent => NodePath.lead parent ++ "?"

def NodePath.lead (path : NodePath) : String :=
  match path with
  | [] => ""
  | step :: parent => NodePath.text (step :: parent) ++ "."

end

inductive Misfit where
  | localTag
  | outOfRange
  | wrongTag (text expected : String)
  | sequenceKey (first : Bool)
  | mappingKey (first : Bool)
deriving DecidableEq, Repr

def expectedKey (first : Bool) : String :=
  if first then "a string key" else "a string"

def Misfit.message : Misfit → String
  | localTag => "invalid type: enum, expected any valid JSON value"
  | outOfRange => "JSON number out of range"
  | wrongTag text expected =>
    "invalid value: string " ++ Text.shown text ++ ", expected " ++ expected
  | sequenceKey first => "invalid type: sequence, expected " ++ expectedKey first
  | mappingKey first => "invalid type: map, expected " ++ expectedKey first

inductive DocumentError where
  | broken (cause : Break)
  | unfit (misfit : Misfit) (path : NodePath) (mark : Mark)
  | tooDeep (mark : Mark)
  | tooManyAliases
  | manyDocuments
deriving Repr

def DocumentError.message : DocumentError → String
  | broken (.malformed error) => error.message
  | broken (.unknownAnchor mark) => "unknown anchor" ++ mark.suffix
  | unfit misfit path mark =>
    (if path.isEmpty then "" else path.text ++ ": ") ++ misfit.message ++ mark.suffix
  | tooDeep mark => "recursion limit exceeded" ++ mark.suffix
  | tooManyAliases => "repetition limit exceeded"
  | manyDocuments => "deserializing from YAML containing more than one document is not supported"

def coreTag (name : String) : Octets :=
  octetsOf ("tag:yaml.org,2002:".toList ++ name.toList)

def isLocal (tag : Octets) : Bool :=
  tag.head? == Tag.unspecific.rest.head?

def checkTag (tag : Option Octets) : Except Misfit Unit :=
  match tag with
  | some tag =>
    if isLocal tag && ByteArray.validateUTF8 ⟨tag.toArray⟩ then .error .localTag else .ok ()
  | none => .ok ()

def orWrongTag {α : Type} (text expected : String) (found : Option α) : Except Misfit α :=
  found.elim (.error (.wrongTag text expected)) .ok

def wholeValue (value : Int) : Except Misfit Json :=
  if Number.fitsInteger value then .ok (.integer value) else .error .outOfRange

def plainValue (text : String) : Except Misfit Json :=
  (plainValue? text).elim (.error .outOfRange) .ok

def taggedValue (tag : Octets) (plain : Bool) (text : String) : Except Misfit Json :=
  if tag == coreTag "bool" then
    (orWrongTag text "a boolean" (readTruth? text)).map Json.bool
  else if tag == coreTag "int" then
    (orWrongTag text "an integer" ((readWhole? text.toList).filter isWide)).bind wholeValue
  else if tag == coreTag "float" then
    (orWrongTag text "a float" (readFloat? text)).map floatValue
  else if tag == coreTag "null" then
    if isNullWord text then .ok .null else .error (.wrongTag text "null")
  else if plain && isLocal tag then plainValue text
  else .ok (.string text)

def scalarValue (tag : Option Octets) (plain : Bool) (text : String) : Except Misfit Json := do
  checkTag tag
  match tag with
  | some tag => taggedValue tag plain text
  | none => if plain then plainValue text else .ok (.string text)

structure Document where
  root : Node
  anchored : List (Nat × Node)

-- A step towards a value; the state is how many more aliases may be followed.
abbrev Valuing (α : Type) := StateT Nat (Except DocumentError) α

def orUnfit {α : Type} (path : NodePath) (mark : Mark) (found : Except Misfit α) : Valuing α :=
  match found with
  | .ok value => return value
  | .error misfit => throw (.unfit misfit path mark)

def yamlNestingLimit : Nat := 128

def itemValues (value : NodePath → Node → Valuing Json) (path : NodePath) (index : Nat) :
    List Node → Valuing (List Json)
  | [] => return []
  | item :: rest => do
    let first ← value (.item index :: path) item
    let others ← itemValues value path (index + 1) rest
    return first :: others

def PathStep.ofKey : Node → PathStep
  | .scalar _ _ text => .entry text
  | _ => .unnamed

def entryValues (keyText : Bool → Node → Valuing String)
    (value : PathStep → Node → Valuing Json) (first : Bool) :
    List (Node × Node) → Valuing (List (String × Json))
  | [] => return []
  | (key, node) :: rest => do
    let name ← keyText first key
    let found ← value (.ofKey key) node
    let others ← entryValues keyText value false rest
    return (name, found) :: others

namespace Document

def aliasLimit (document : Document) : Nat :=
  document.root.size * 100

-- The node that an alias stands for. Of several anchors with its number the last one counts.
def target (document : Document) (node : Node) : Valuing Node :=
  match node with
  | .aliasOf anchor mark => do
    let left ← get
    if left = 0 then throw .tooManyAliases
    else
      set (left - 1)
      match document.anchored.reverse.lookup anchor with
      | some found => return found
      | none => throw (.broken (.unknownAnchor mark))
  | node => return node

def keyText (document : Document) (path : NodePath) (first : Bool) (key : Node) :
    Valuing String := do
  match ← document.target key with
  | .scalar _ _ text => return text
  | .sequence properties _ => throw (.unfit (.sequenceKey first) path properties.mark)
  | .mapping properties _ => throw (.unfit (.mappingKey first) path properties.mark)
  | .aliasOf _ mark => throw (.broken (.unknownAnchor mark))
  | .broken cause => throw (.broken cause)

def nodeValue (document : Document) (depth : Nat) (path : NodePath) (node : Node) :
    Valuing Json := do
  match ← document.target node with
  | .scalar properties plain text =>
    orUnfit path properties.mark (scalarValue properties.tag plain text)
  | .sequence properties items => do
    orUnfit path properties.mark (checkTag properties.tag)
    match depth with
    | 0 => throw (.tooDeep properties.mark)
    | depth + 1 =>
      let items ← itemValues (document.nodeValue depth) path 0 items
      return .array items
  | .mapping properties entries => do
    orUnfit path properties.mark (checkTag properties.tag)
    match depth with
    | 0 => throw (.tooDeep properties.mark)
    | depth + 1 =>
      let value (step : PathStep) (node : Node) := document.nodeValue depth (step :: path) node
      let entries ← entryValues (document.keyText path) value true entries
      return .object (Entries.merge entries)
  | .aliasOf _ mark => throw (.broken (.unknownAnchor mark))
  | .broken cause => throw (.broken cause)
termination_by structural depth

def value (document : Document) : Except DocumentError Json :=
  (document.nodeValue yamlNestingLimit [] document.root).run' document.aliasLimit

end Document

def standardHandles : Entries Octets :=
  [("!", octetsOf ['!']), ("!!", coreTag "")]

structure Directives where
  version : Bool
  handles : Entries Octets

def Directives.add (directive : Directive) (mark : Mark) (directives : Directives) :
    Except Break Directives :=
  match directive with
  | .version major minor =>
    if directives.version then .error (.malformed ⟨.repeatedVersion, mark, none⟩)
    else if major == 1 && (minor == 1 || minor == 2) then
      .ok { directives with version := true }
    else .error (.malformed ⟨.incompatibleVersion, mark, none⟩)
  | .handle name meaning =>
    if directives.handles.contains name then .error (.malformed ⟨.repeatedHandle, mark, none⟩)
    else .ok { directives with handles := directives.handles.insert name meaning }

def readDirectives : Nat → Directives → Reader → Except Break Reader
  | 0, _, reader => .ok reader
  | fuel + 1, directives, reader => do
    match ← reader.peek with
    | ⟨.directive directive, mark⟩ =>
      let directives ← directives.add directive mark
      readDirectives fuel directives reader.skip
    | ⟨.documentStart, _⟩ =>
      return { reader.skip with handles := standardHandles.extend directives.handles }
    | token => .error (.malformed ⟨.missingDocumentStart, token.mark, none⟩)

def isIntroduced : TokenKind → Bool
  | .directive _ => true
  | .documentStart => true
  | _ => false

def endsDocument (kind : TokenKind) : Bool :=
  isIntroduced kind || kind == .documentEnd || kind == .streamEnd

def readRoot (reader : Reader) : Reading Node :=
  let fuel := 4 * reader.tokens.length + 4
  match reader.peek with
  | .error cause => brokenNode cause
  | .ok token =>
    if isIntroduced token.kind then
      match readDirectives fuel ⟨false, []⟩ reader with
      | .error cause => brokenNode cause
      | .ok reader => readPart true false endsDocument fuel reader
    else readNode true false fuel reader

def checkLast (reader : Reader) : Except DocumentError Unit :=
  match reader.peek with
  | .error cause => .error (.broken cause)
  | .ok _ =>
    match (reader.tokens.dropWhile fun token => token.kind == .documentEnd).head? with
    | some ⟨.streamEnd, _⟩ => .ok ()
    | _ => .error .manyDocuments

def read (text : String) : Except DocumentError Json :=
  let (tokens, fault) := tokens text
  match tokens, fault with
  | [⟨.streamEnd, _⟩], none => .ok .null
  | _, _ =>
    match readRoot ⟨tokens, fault, standardHandles, []⟩ with
    | (root, none) => Document.value ⟨root, root.anchored⟩
    | (root, some reader) => do
      let value ← Document.value ⟨root, root.anchored⟩
      checkLast reader
      return value

end BrowserFlow.Yaml
