import BrowserFlow.Expression
/-! Browser drivers. A driver is a machine over calls: each call takes the same time, and leaves an outcome
and a state. -/
set_option autoImplicit false

namespace BrowserFlow

open Json

inductive Call where
  | navigate (url : String)
  | waitForLoad
  | fill (selector : String) (value : Json)
  | click (selector : String)
  | press (selector : String) (key : String)
  | typeText (text : Json)
  | selectOption (selector : String) (value : Json)
  | setFiles (selector : String) (files : Json)
  | waitForSelector (selector : String) (timeout : Nat)
  | runScript (code : String)
deriving Repr, Inhabited, BEq

namespace Call

def method : Call → String
  | navigate _ => "navigate"
  | waitForLoad => "wait_for_load"
  | fill _ _ => "fill"
  | click _ => "click"
  | press _ _ => "press"
  | typeText _ => "type_text"
  | selectOption _ _ => "select_option"
  | setFiles _ _ => "set_files"
  | waitForSelector _ _ => "wait_for_selector"
  | runScript _ => "run_script"

def selector? : Call → Option String
  | fill selector _ => some selector
  | click selector => some selector
  | press selector _ => some selector
  | selectOption selector _ => some selector
  | setFiles selector _ => some selector
  | waitForSelector selector _ => some selector
  | _ => none

def isScript : Call → Bool
  | runScript _ => true
  | _ => false

def encode (call : Call) : Json :=
  object <| ("method", string call.method) ::
    match call with
    | navigate url => [("url", string url)]
    | waitForLoad => []
    | fill selector value => [("selector", string selector), ("value", value)]
    | click selector => [("selector", string selector)]
    | press selector key => [("selector", string selector), ("key", string key)]
    | typeText text => [("text", text)]
    | selectOption selector value => [("selector", string selector), ("value", value)]
    | setFiles selector files => [("selector", string selector), ("files", files)]
    | waitForSelector selector timeout =>
      [("selector", string selector), ("timeout_ms", natural timeout)]
    | runScript code => [("code", string code)]

end Call

inductive DriverError where
  | elementNotFound (selector : String)
  | timeout (selector : String) (milliseconds : Nat)
  | navigation (url : String) (reason : String)
  | script (reason : String)
  | unsupported (feature : String)
  | other (reason : String)
deriving DecidableEq, Repr, Inhabited

def DriverError.message : DriverError → String
  | elementNotFound selector => "no element matches selector '" ++ selector ++ "'"
  | timeout selector milliseconds =>
    "timed out after " ++ Text.ofNat milliseconds ++ " ms waiting for '" ++ selector ++ "'"
  | navigation url reason => "navigation to '" ++ url ++ "' failed: " ++ reason
  | script reason => "script failed: " ++ reason
  | unsupported feature => "driver does not support " ++ feature
  | other reason => reason

abbrev Outcome := Except DriverError (Option Json)

structure Driver (State : Type) where
  delay : Nat
  perform : Call → State → Outcome × State

inductive FilesError where
  | entry (found : Json)
  | argument (found : Json)
deriving Repr, BEq

def FilesError.message : FilesError → String
  | entry found => "file list entries must be paths, got " ++ found.compact
  | argument found => "file argument must be a path or a list of paths, got " ++ found.compact

def pathsOfItems : List Json → Except FilesError (List String)
  | [] => .ok []
  | string path :: rest => (pathsOfItems rest).map (path :: ·)
  | item :: _ => .error (.entry item)

def filePaths : Json → Except FilesError (List String)
  | string path => .ok [path]
  | array items => pathsOfItems items
  | value => .error (.argument value)

end BrowserFlow
