import BrowserFlow.Authoring.Violation
import BrowserFlow.Files.Documents
import BrowserFlow.Program.Store
/-! What an operator is shown of workflows: the list of them, a description of one, its violations. -/
set_option autoImplicit false

namespace BrowserFlow

open Json

def textLine (text : String) : String :=
  text ++ "\n"

def spaces (count : Nat) : String :=
  String.ofList (List.replicate count ' ')

def padded (width : Nat) (name : String) : String :=
  name ++ spaces (width - name.length)

-- The list of workflows, each with whether its program is there. The column of names is as wide as
-- the longest name has bytes.
def listing (tree : FileTree) (programsDirectory : String) (found : List FileTree.Listed) :
    String :=
  if found.isEmpty then textLine "No workflows found"
  else
    let width := (found.map fun entry => entry.name.utf8ByteSize).foldl max 0
    String.join <| found.map fun entry =>
      let compiled := tree.isFile (programPath programsDirectory entry.name)
      textLine (padded width entry.name ++ "  " ++ if compiled then "compiled" else "not compiled")

structure Column where
  name : String
  description : String
  first : String
  second : String
deriving DecidableEq, Repr

namespace Column

def ofParameter (name : String) (parameter : Parameter) : Column :=
  let description := parameter.description.getD ""
  if parameter.acceptsFile then
    ⟨name, description, "C:\\path\\file1.jpg", "C:\\path\\file2.jpg"⟩
  else
    match parameter.default with
    | some value => ⟨name, description, fieldText value, fieldText value⟩
    | none => ⟨name, description, "value1", "value2"⟩

def ofExtraction (extraction : Extraction) : Column :=
  let field := extraction.field.toList
  if Text.contains "amount".toList field then
    ⟨extraction.field, extraction.summary, "5000", "8000"⟩
  else if Text.contains "date".toList field then
    ⟨extraction.field, extraction.summary, "2025/01/04", "2025/01/05"⟩
  else ⟨extraction.field, extraction.summary, "Sample1", "Sample2"⟩

end Column

namespace Workflow

def columns (workflow : Workflow) : List Column :=
  (workflow.inputs.map fun entry => Column.ofParameter entry.1 entry.2) ++
    workflow.extractions.map Column.ofExtraction

def sampleBatch (workflow : Workflow) : List String :=
  let columns := workflow.columns
  [Text.joinWith "," (columns.map Column.name), Text.joinWith "," (columns.map Column.first),
    Text.joinWith "," (columns.map Column.second)]

def rule : String :=
  String.ofList (List.replicate 60 '=')

def trimEnd (text : String) : String :=
  String.ofList (Text.trimRight text.toList)

def paragraph (heading : String) (lines : List String) : String :=
  if lines.isEmpty then ""
  else String.join (("\n" ++ textLine heading) :: lines.map textLine)

def describe (workflow : Workflow) (compiledAt : Option String) : String :=
  let columns := workflow.columns
  textLine rule ++ textLine workflow.name ++ textLine rule ++
  (match workflow.description with
    | some description => "\n" ++ textLine (trimEnd description)
    | none => "") ++
  paragraph "Constants:"
    (workflow.constants.map fun entry => "  " ++ entry.1 ++ ": " ++ entry.2.compact) ++
  paragraph "Batch fields:"
    (columns.map fun column => "  " ++ column.name ++ ": " ++ column.description) ++
  paragraph "Usage:"
    ["  pagewright run " ++ workflow.name ++ " <input-path>",
      "  pagewright run " ++ workflow.name ++ " --extract-csv data.csv"] ++
  paragraph "  data.csv:"
    (if columns.isEmpty then [] else workflow.sampleBatch.map fun row => "    " ++ row) ++
  "\n" ++
  textLine (match compiledAt with
    | some path => "Compiled program: " ++ path
    | none =>
      "Not compiled yet: run `pagewright compile " ++ workflow.name ++ "` before running it")

end Workflow

def violationReport (violations : List Authoring.Violation) : String :=
  textLine ("Validation failed with " ++ Text.ofNat violations.length ++ " error(s):") ++
  String.join (violations.map fun violation =>
    "\n" ++ textLine ("  Path: " ++ Authoring.Pointer.text violation.pointer) ++
    textLine ("  Error: " ++ violation.defect.message) ++
    textLine ("  Details: " ++ violation.defect.params.compact))

end BrowserFlow
