import BrowserFlow.Files.FileTree
import BrowserFlow.Json.Decoding
/-! Settings of the runner, kept as a JSON document. What the document does not set has a default. -/
set_option autoImplicit false

namespace BrowserFlow

open Json

structure Settings where
  workflowsDirectory : String
  programsDirectory : String
  maxRetries : Nat
  retryDelay : Nat
  headless : Bool
  stepDeadline : Option Nat
  constants : Entries Json
deriving Repr, BEq

structure Environment where
  home : String
  settingsPath : Option String
  configHome : Option String
deriving DecidableEq, Repr

namespace Settings

def default : Settings where
  workflowsDirectory := "workflows"
  programsDirectory := "generated"
  maxRetries := 3
  retryDelay := 2000
  headless := false
  stepDeadline := none
  constants := []

def fieldNames : List String :=
  ["workflows_dir", "programs_dir", "max_retries", "retry_delay_ms", "headless",
    "step_deadline_ms", "constants"]

def decodePath : Decoder String := fun source => do
  match ← source.face with
  | string text => return text
  | found => source.refuse (.kind found "path string")

def fields : Fields Settings :=
  Settings.mk <$> defaulted "workflows_dir" default.workflowsDirectory decodePath <*>
    defaulted "programs_dir" default.programsDirectory decodePath <*>
    defaulted "max_retries" default.maxRetries decodeHalfWord <*>
    defaulted "retry_delay_ms" default.retryDelay decodeWord <*>
    defaulted "headless" default.headless decodeFlag <*>
    optional "step_deadline_ms" decodeWord <*>
    defaulted "constants" default.constants (decodeTable decodeAny)

def decode : Decoder Settings :=
  record "struct RunnerSettings" fieldNames fields

def encode (settings : Settings) : Json :=
  object [("workflows_dir", string settings.workflowsDirectory),
    ("programs_dir", string settings.programsDirectory),
    ("max_retries", natural settings.maxRetries),
    ("retry_delay_ms", natural settings.retryDelay), ("headless", bool settings.headless),
    ("step_deadline_ms", (settings.stepDeadline.map natural).getD null),
    ("constants", object settings.constants)]

def expand (home : String) (settings : Settings) : Settings :=
  { settings with
    workflowsDirectory := Path.expandHome home settings.workflowsDirectory
    programsDirectory := Path.expandHome home settings.programsDirectory }

def ofText (text : String) : Settings :=
  (decodeDocument decode text).toOption.getD default

def load (home : String) (tree : FileTree) (path : String) : Except FileError Settings :=
  match tree.read path with
  | .ok text => .ok ((ofText text).expand home)
  | .error .notFound => .ok (default.expand home)
  | .error error => .error error

end Settings

namespace Environment

-- The directory of configurations. A relative one does not count.
def configDirectory (environment : Environment) : String :=
  match environment.configHome.filter Path.isAbsolute with
  | some directory => directory
  | none => Path.join environment.home ".config"

def defaultSettingsPath (environment : Environment) : String :=
  match environment.settingsPath.filter fun path => !Text.isBlankText path with
  | some path => Path.expandHome environment.home path
  | none => Path.join (Path.join environment.configDirectory "pagewright") "settings.json"

end Environment

end BrowserFlow
