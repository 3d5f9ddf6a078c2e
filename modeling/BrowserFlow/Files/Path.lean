import BrowserFlow.Text.Blank
import BrowserFlow.Text.Lines
import BrowserFlow.Text.Word
/-! Paths as texts. Slashes separate the names of a path; a path that starts with one is absolute. -/
set_option autoImplicit false

namespace BrowserFlow.Path

def separator : Char := '/'

def isAbsolute (path : String) : Bool :=
  path.toList.head? == some separator

def endsWithSlash (path : String) : Bool :=
  path.toList.getLast? == some separator

def join (base path : String) : String :=
  if isAbsolute path || base.isEmpty then path
  else if endsWithSlash base then base ++ path
  else base ++ "/" ++ path

-- The pieces of a path that name something: repeated slashes and single dots name nothing, save a
-- dot that opens the path.
def components (path : String) : List String :=
  let pieces := Text.split separator path
  let opening := if pieces.head? == some "." then ["."] else []
  opening ++ pieces.filter fun piece => !piece.isEmpty && piece != "."

def fileName? (path : String) : Option String :=
  (components path).getLast?.filter fun name => name != "." && name != ".."

-- A name cut at its last dot, if one stands behind its first character.
def splitExtension (name : String) : String × Option String :=
  let reversed := name.toList.reverse
  let before := (reversed.dropWhile (· ≠ '.')).drop 1
  if reversed.contains '.' && !before.isEmpty then
    (String.ofList before.reverse,
      some (String.ofList (reversed.takeWhile (· ≠ '.')).reverse))
  else (name, none)

def stem? (path : String) : Option String :=
  (fileName? path).map fun name => (splitExtension name).1

def extension? (path : String) : Option String :=
  (fileName? path).bind fun name => (splitExtension name).2

def documentExtensions : List String := ["yaml", "yml", "json"]

def isDocument (path : String) : Bool :=
  match extension? path with
  | some extension => documentExtensions.contains (Text.lower extension)
  | none => false

-- A reversed path without the slashes and dots at its end that name nothing.
def dropEmpty : List Char → List Char
  | '/' :: rest => if rest.isEmpty then ['/'] else dropEmpty rest
  | '.' :: '/' :: rest => if rest.isEmpty then ['/'] else dropEmpty rest
  | reversed => reversed

def parent? (path : String) : Option String :=
  match dropEmpty path.toList.reverse with
  | [] => none
  | ['/'] => none
  | reversed => some (String.ofList (dropEmpty (reversed.dropWhile (· ≠ '/'))).reverse)

def expandHome (home path : String) : String :=
  let path := Text.trim path
  match path.toList with
  | ['~'] => home
  | '~' :: '/' :: rest => join home (String.ofList rest)
  | '~' :: '\\' :: rest => join home (String.ofList rest)
  | _ => path

end BrowserFlow.Path
