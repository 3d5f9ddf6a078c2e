import BrowserFlow.Entries
/-! The actions that a step can perform. -/
set_option autoImplicit false

namespace BrowserFlow

inductive Action where
  | navigate
  | fill
  | click
  | press
  | type
  | select
  | fileUpload
  | wait
  | rawCode
deriving DecidableEq, Repr, Inhabited

namespace Action

def all : List Action :=
  [navigate, fill, click, press, type, select, fileUpload, wait, rawCode]

def name : Action → String
  | navigate => "navigate"
  | fill => "fill"
  | click => "click"
  | press => "press"
  | type => "type"
  | select => "select"
  | fileUpload => "file_upload"
  | wait => "wait"
  | rawCode => "raw_code"

def names : List String :=
  all.map name

def named : List (String × Action) :=
  all.map fun action => (action.name, action)

-- A second name of `rawCode`, for documents only.
def rawCodeAlias : String := "playwright_code"

def ofName? (authored : String) : Option Action :=
  if authored = rawCodeAlias then some rawCode else Entries.find? authored named

def requiredFields : Action → List String
  | navigate => ["url"]
  | fill => ["selector", "value"]
  | select => ["selector", "value"]
  | click => ["selector"]
  | wait => ["selector"]
  | press => ["selector", "key"]
  | type => ["value"]
  | fileUpload => ["selector", "file"]
  | rawCode => ["code"]

end Action

end BrowserFlow
