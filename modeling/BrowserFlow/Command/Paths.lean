import BrowserFlow.Command
import BrowserFlow.Files.Documents
import BrowserFlow.Program.Store
import BrowserFlow.Settings
/-! The paths that a command may look at: what is at them is all that its answer depends on. -/
set_option autoImplicit false

namespace BrowserFlow

def Settings.documentPaths (settings : Settings) (identifier : String) : List String :=
  identifier :: FileTree.candidates settings.workflowsDirectory identifier

def Settings.programPaths (settings : Settings) (identifier : String) : List String :=
  [identifier, programPath settings.programsDirectory (workflowName identifier)]

def Command.paths (settings : Settings) : Command → List String
  | list => []
  | describe workflow => settings.documentPaths workflow
  | validate workflow => settings.documentPaths workflow
  | compile workflow output _ => settings.documentPaths workflow ++ output.toList
  | run request =>
    settings.programPaths request.workflow ++ request.inputPath.toList ++ request.batchPath.toList

def Invocation.paths (invocation : Invocation) (settings : Settings) : List String :=
  [settings.workflowsDirectory, settings.programsDirectory] ++ invocation.command.paths settings

end BrowserFlow
