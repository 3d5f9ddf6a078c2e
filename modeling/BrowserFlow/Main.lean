import BrowserFlow.Command.Answer
import BrowserFlow.Command.Paths
/-! The command line on a disk: what a command may look at is taken in, and what it wrote is put back. -/
set_option autoImplicit false

namespace BrowserFlow.Disk

def placeText (place : Place) : String :=
  String.join (place.map ("/" ++ ·))

def placeOf (workingDirectory : Place) (path : String) : Place :=
  let start := if Path.isAbsolute path then [] else workingDirectory
  (Text.split Path.separator path).foldl
    (fun place name =>
      if name.isEmpty || name == "." then place
      else if name == ".." then place.dropLast
      else place ++ [name])
    start

-- Takes in what is at a place: a file with its text, a directory without what is in it.
def takeNode (tree : FileTree) (place : Place) : IO FileTree := do
  let path := (← IO.currentDir) / placeText place
  if ← path.isDir then return tree.put place .directory
  try
    return tree.put place (.file (← IO.FS.readFile path))
  catch _ => return tree

def takePath (tree : FileTree) (path : String) : IO FileTree := do
  let place := placeOf tree.workingDirectory path
  let mut tree := tree
  for length in List.range (place.length + 1) do
    tree ← takeNode tree (place.take length)
  let target := (← IO.currentDir) / placeText place
  if ← target.isDir then
    for entry in ← target.readDir do
      tree ← takeNode tree (place ++ [entry.fileName])
  return tree

def writeBack (before after : FileTree) : IO Unit := do
  let fresh := after.nodes.filter fun entry => before.nodes.lookup entry.1 != some entry.2
  for (place, node) in fresh do
    if node == .directory then IO.FS.createDirAll ((← IO.currentDir) / placeText place)
  for (place, node) in fresh do
    match node with
    | .file text => IO.FS.writeFile ((← IO.currentDir) / placeText place) text
    | .directory => pure ()

def environment : IO Environment := do
  let home := (← IO.getEnv "HOME").getD "/"
  return ⟨home, ← IO.getEnv "PAGEWRIGHT_SETTINGS_PATH", ← IO.getEnv "XDG_CONFIG_HOME"⟩

def takeFiles (environment : Environment) (invocation : Invocation) : IO FileTree := do
  let workingDirectory := placeOf [] (toString (← IO.currentDir))
  let tree ← takePath (FileTree.empty workingDirectory) environment.defaultSettingsPath
  match Settings.load environment.home tree environment.defaultSettingsPath with
  | .ok settings => (invocation.paths (invocation.adjust settings)).foldlM takePath tree
  | .error _ => return tree

def tell (answer : Answer) : IO UInt32 := do
  IO.print answer.output
  IO.eprint answer.errors
  return answer.code.toUInt32

end BrowserFlow.Disk

open BrowserFlow in
def main (arguments : List String) : IO UInt32 := do
  match Arguments.read arguments with
  | .error refusal => Disk.tell refusal.answer
  | .ok invocation =>
    let environment ← Disk.environment
    let before ← Disk.takeFiles environment invocation
    let (answer, after) := invocation.answer environment before
    Disk.writeBack before after
    Disk.tell answer
