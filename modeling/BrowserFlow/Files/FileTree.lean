import BrowserFlow.Files.Path
/-! A tree of files. Paths are followed name by name from the root or from the working directory. -/
set_option autoImplicit false

namespace BrowserFlow

inductive Node where
  | file (text : String)
  | directory
deriving DecidableEq, Repr, Inhabited

abbrev Place := List String

-- Files and directories by their places, and the place of the working directory. The root and the
-- working directory are always there.
structure FileTree where
  workingDirectory : Place
  nodes : List (Place × Node)
deriving DecidableEq, Repr, Inhabited

inductive FileError where
  | notFound
  | alreadyThere
  | notDirectory
  | isDirectory
  | tooLong
  | nullInPath
deriving DecidableEq, Repr

def FileError.message : FileError → String
  | notFound => "No such file or directory (os error 2)"
  | alreadyThere => "File exists (os error 17)"
  | notDirectory => "Not a directory (os error 20)"
  | isDirectory => "Is a directory (os error 21)"
  | tooLong => "File name too long (os error 36)"
  | nullInPath => "file name contained an unexpected NUL byte"

namespace FileTree

def nameLimit : Nat := 255

def pathLimit : Nat := 4095

def checkPath (path : String) : Except FileError Unit :=
  if path.toList.contains '\x00' then .error .nullInPath
  else if pathLimit < path.utf8ByteSize then .error .tooLong
  else .ok ()

def node? (tree : FileTree) (place : Place) : Option Node :=
  if place.isPrefixOf tree.workingDirectory then some .directory else tree.nodes.lookup place

def put (tree : FileTree) (place : Place) (node : Node) : FileTree :=
  { tree with nodes := (place, node) :: tree.nodes.filter fun entry => entry.1 != place }

def origin (tree : FileTree) (path : String) : Place :=
  if Path.isAbsolute path then [] else tree.workingDirectory

def steps (path : String) : List String :=
  ((Text.split Path.separator path).filter fun piece => !piece.isEmpty) ++
    if Path.endsWithSlash path then ["."] else []

def follow (tree : FileTree) (place : Place) (name : String) : Except FileError Place :=
  match tree.node? place with
  | none => .error .notFound
  | some (.file _) => .error .notDirectory
  | some .directory =>
    if name = "." then .ok place
    else if name = ".." then .ok place.dropLast
    else if nameLimit < name.utf8ByteSize then .error .tooLong
    else
      let inner := place ++ [name]
      if (tree.node? inner).isSome then .ok inner else .error .notFound

def followAll (tree : FileTree) (place : Place) : List String → Except FileError Place
  | [] => .ok place
  | name :: rest =>
    match tree.follow place name with
    | .ok inner => followAll tree inner rest
    | .error error => .error error

def resolve (tree : FileTree) (path : String) : Except FileError Place := do
  checkPath path
  if path.isEmpty then .error .notFound else tree.followAll (tree.origin path) (steps path)

def find? (tree : FileTree) (path : String) : Option Node :=
  match tree.resolve path with
  | .ok place => tree.node? place
  | .error _ => none

def isFile (tree : FileTree) (path : String) : Bool :=
  match tree.find? path with
  | some (.file _) => true
  | _ => false

def isDirectory (tree : FileTree) (path : String) : Bool :=
  match tree.find? path with
  | some .directory => true
  | _ => false

def read (tree : FileTree) (path : String) : Except FileError String :=
  match tree.resolve path with
  | .error error => .error error
  | .ok place =>
    match tree.node? place with
    | some (.file text) => .ok text
    | some .directory => .error .isDirectory
    | none => .error .notFound

def enter (tree : FileTree) (place : Place) (name : String) :
    Except FileError (FileTree × Place) :=
  match tree.follow place name with
  | .ok inner => .ok (tree, inner)
  | .error .notFound => .ok (tree.put (place ++ [name]) .directory, place ++ [name])
  | .error error => .error error

def enterAll (tree : FileTree) (place : Place) : List String → Except FileError (FileTree × Place)
  | [] => .ok (tree, place)
  | name :: rest =>
    match tree.enter place name with
    | .ok (tree, inner) => enterAll tree inner rest
    | .error error => .error error

def makeDirectories (tree : FileTree) (path : String) : Except FileError FileTree := do
  checkPath path
  let (made, place) ← tree.enterAll (tree.origin path) (steps path)
  match made.node? place with
  | some (.file _) => .error .alreadyThere
  | _ => return made

-- The place of a file to be written: its directory is there, the file need not be. A path with a
-- slash at its end names no file.
def destination (tree : FileTree) (path : String) : Except FileError Place := do
  checkPath path
  match ((Text.split Path.separator path).filter fun piece => !piece.isEmpty).reverse with
  | [] => .error (if path.isEmpty then .notFound else .isDirectory)
  | name :: before => do
    let place ← tree.followAll (tree.origin path) before.reverse
    match tree.node? place with
    | some .directory =>
      if name = "." then return place
      else if name = ".." then return place.dropLast
      else if Path.endsWithSlash path then .error .isDirectory
      else if nameLimit < name.utf8ByteSize then .error .tooLong
      else return place ++ [name]
    | _ => .error .notDirectory

def write (tree : FileTree) (path text : String) : Except FileError FileTree :=
  match tree.destination path with
  | .error error => .error error
  | .ok place =>
    match tree.node? place with
    | some .directory => .error .isDirectory
    | _ => .ok (tree.put place (.file text))

def fileNames (tree : FileTree) (path : String) : List String :=
  match tree.resolve path with
  | .error _ => []
  | .ok place =>
    tree.nodes.filterMap fun entry =>
      match entry.2 with
      | .file _ => if entry.1.dropLast == place then entry.1.getLast? else none
      | .directory => none

def empty (workingDirectory : Place) : FileTree := ⟨workingDirectory, []⟩

end FileTree

end BrowserFlow
