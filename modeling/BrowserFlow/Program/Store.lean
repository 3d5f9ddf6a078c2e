import BrowserFlow.Failure
/-! Programs in a directory, each in a file named for its workflow. -/
set_option autoImplicit false

namespace BrowserFlow

def artifactEnding : String := ".program.json"

def withoutEnding? (ending text : String) : Option String :=
  let chars := text.toList.reverse
  let reversed := ending.toList.reverse
  if reversed.isPrefixOf chars then
    some (String.ofList (chars.drop reversed.length).reverse)
  else none

-- The name of the workflow that an identifier stands for: the file name of a path without what a
-- program's or a document's name ends with.
def workflowName (identifier : String) : String :=
  let name := (Path.fileName? identifier).getD identifier
  match withoutEnding? artifactEnding name with
  | some workflow => workflow
  | none =>
    if Path.isDocument identifier then (Path.stem? identifier).getD name else name

def programPath (directory name : String) : String :=
  Path.join directory (name ++ artifactEnding)

namespace FileTree

def makeParent (tree : FileTree) (path : String) : Except Failure FileTree :=
  match (Path.parent? path).filter fun parent => !parent.isEmpty with
  | none => .ok tree
  | some parent =>
    match tree.makeDirectories parent with
    | .ok made => .ok made
    | .error cause => .error (.noDirectory parent cause)

def writeProgram (tree : FileTree) (path : String) (program : Program) :
    Except Failure FileTree :=
  match tree.makeParent path with
  | .error failure => .error failure
  | .ok tree =>
    match tree.write path program.artifactText with
    | .ok written => .ok written
    | .error cause => .error (.unwritableProgram path cause)

def saveProgram (tree : FileTree) (directory : String) (program : Program) :
    Except Failure (String × FileTree) :=
  let path := programPath directory program.name
  (tree.writeProgram path program).map fun written => (path, written)

def loadProgram (tree : FileTree) (path : String) : Except Failure Program :=
  match tree.read path with
  | .error cause => .error (.unreadableProgram path cause)
  | .ok text =>
    match Program.readArtifact text with
    | .ok program => .ok program
    | .error cause => .error (.invalidProgram path text cause)

def locateProgram (tree : FileTree) (directory identifier : String) : Except Failure String :=
  if (withoutEnding? artifactEnding identifier).isSome && tree.isFile identifier then
    .ok identifier
  else
    let name := workflowName identifier
    let path := programPath directory name
    if tree.isFile path then .ok path else .error (.notCompiled name path identifier)

def loadCompiled (tree : FileTree) (directory identifier : String) : Except Failure Program :=
  match tree.locateProgram directory identifier with
  | .ok path => tree.loadProgram path
  | .error failure => .error failure

end FileTree

end BrowserFlow
