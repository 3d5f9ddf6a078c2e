import BrowserFlow.Failure
/-! Reading documents and batches from files, and finding workflows in a directory. -/
set_option autoImplicit false

namespace BrowserFlow.FileTree

-- The document in a file; JSON is read as YAML.
def loadDocument (tree : FileTree) (path : String) : Except Failure Json :=
  match tree.read path with
  | .error cause => .error (.unreadableWorkflow path cause)
  | .ok text =>
    match Yaml.read text with
    | .error cause => .error (.malformedWorkflow path cause)
    | .ok value => .ok value

def loadBatch (tree : FileTree) (path : String) : Except Failure (List Batch.Record) :=
  match tree.read path with
  | .error cause => .error (.unreadableBatch path cause)
  | .ok text =>
    match Batch.read text with
    | .error cause => .error (.invalidBatch path cause)
    | .ok records => .ok records

structure Listed where
  name : String
  path : String
deriving DecidableEq, Repr

def listed? (tree : FileTree) (directory name : String) : Option Listed :=
  let path := Path.join directory name
  if tree.isFile path && Path.isDocument path then
    (Path.stem? path).map fun stem => ⟨stem, path⟩
  else none

def Listed.before (left right : Listed) : Bool :=
  left.name < right.name || (left.name == right.name && !(right.path < left.path))

def discover (tree : FileTree) (directory : String) : List Listed :=
  if tree.isDirectory directory then
    ((tree.fileNames directory).filterMap (tree.listed? directory)).mergeSort Listed.before
  else []

def candidates (directory identifier : String) : List String :=
  Path.documentExtensions.map fun extension =>
    Path.join directory (identifier ++ "." ++ extension)

def resolveWorkflow (tree : FileTree) (directory identifier : String) : Except Failure String :=
  if tree.isFile identifier then .ok identifier
  else
    match (candidates directory identifier).find? tree.isFile with
    | some path => .ok path
    | none => .error (.workflowNotFound identifier (candidates directory identifier))

end BrowserFlow.FileTree
