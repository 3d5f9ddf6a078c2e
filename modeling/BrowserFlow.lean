import BrowserFlow.Text.Blank
import BrowserFlow.Text.Lines
import BrowserFlow.Text.Word
import BrowserFlow.Text.Unseen
import BrowserFlow.Text.Shown
import BrowserFlow.Entries
import BrowserFlow.Number.Double
import BrowserFlow.Number.Shortest
import BrowserFlow.Number.Decimal
import BrowserFlow.Number.Rounded
import BrowserFlow.Json
import BrowserFlow.Json.Writer
import BrowserFlow.Json.Place
import BrowserFlow.Json.Scalar
import BrowserFlow.Json.Written
import BrowserFlow.Json.Decoding
import BrowserFlow.Yaml.Mark
import BrowserFlow.Yaml.Scalar
import BrowserFlow.Yaml.Tag
import BrowserFlow.Yaml.Token
import BrowserFlow.Yaml.Node
import BrowserFlow.Yaml.Plain
import BrowserFlow.Yaml.Document
import BrowserFlow.Action
import BrowserFlow.Workflow.Definition
import BrowserFlow.Workflow.InputText
import BrowserFlow.Reference
import BrowserFlow.Context
import BrowserFlow.Expression
import BrowserFlow.Guard
import BrowserFlow.Condition
import BrowserFlow.Authoring.Violation
import BrowserFlow.Authoring.Check
import BrowserFlow.Program
import BrowserFlow.Program.Compile
import BrowserFlow.Program.Artifact
import BrowserFlow.Run.Driver
import BrowserFlow.Run.Recorder
import BrowserFlow.Run
import BrowserFlow.Batch
import BrowserFlow.Files.Path
import BrowserFlow.Files.FileTree
import BrowserFlow.Settings
import BrowserFlow.Failure
import BrowserFlow.Files.Documents
import BrowserFlow.Program.Store
import BrowserFlow.Sources
import BrowserFlow.Description
import BrowserFlow.Command
import BrowserFlow.Command.Arguments
import BrowserFlow.Command.Paths
import BrowserFlow.Command.Answer
import BrowserFlow.Main
import BrowserFlow.Proofs.Entries
import BrowserFlow.Proofs.Success
import BrowserFlow.Proofs.Text.Pieces
import BrowserFlow.Proofs.Text.Reading
import BrowserFlow.Proofs.Authoring.Pattern
import BrowserFlow.Proofs.Authoring.Grammar
import BrowserFlow.Proofs.Authoring.Acceptance
import BrowserFlow.Proofs.Json.WellFormed
import BrowserFlow.Proofs.Json.Decoding
import BrowserFlow.Proofs.Json.Reading
import BrowserFlow.Proofs.Workflow.Decoding
import BrowserFlow.Proofs.Meaning.Token
import BrowserFlow.Proofs.Meaning
import BrowserFlow.Proofs.Condition
import BrowserFlow.Proofs.Expression
import BrowserFlow.Proofs.Program.Compile
import BrowserFlow.Proofs.Program.Meaning
import BrowserFlow.Proofs.Run.Log
import BrowserFlow.Proofs.Run.Trace
import BrowserFlow.Proofs.Run.Meaning
import BrowserFlow.Proofs.Run.Reads
import BrowserFlow.Proofs.Run.Resume
import BrowserFlow.Proofs.Run.Dry
import BrowserFlow.Proofs.Run.Attempts
import BrowserFlow.Proofs.Interpolation
import BrowserFlow.Proofs.Json.Numeral
import BrowserFlow.Proofs.Json.Spelling
import BrowserFlow.Proofs.Json.Printed
import BrowserFlow.Proofs.Json.Sources
import BrowserFlow.Proofs.Json.Decoded
import BrowserFlow.Proofs.Program.Settled
import BrowserFlow.Proofs.Program.Artifact
import BrowserFlow.Proofs.Json.Compact
import BrowserFlow.Proofs.Display.Quoted
import BrowserFlow.Proofs.Display.Expression
import BrowserFlow.Proofs.Display.Guard
import BrowserFlow.Proofs.Run.Deadline
import BrowserFlow.Proofs.Sources.Precedence
import BrowserFlow.Proofs.Sources.Soundness
import BrowserFlow.Proofs.Files.FileTree
import BrowserFlow.Proofs.Files.Path
import BrowserFlow.Proofs.Program.Store
import BrowserFlow.Proofs.Command.Compile
import BrowserFlow.Proofs.Number.Rounding
import BrowserFlow.Proofs.Guard.Integers
import BrowserFlow.Proofs.Files.Directory
import BrowserFlow.Proofs.Program.Directory
import BrowserFlow.Proofs.Authoring.Pointer
import BrowserFlow.Proofs.Authoring.Soundness
import BrowserFlow.Proofs.Authoring.Independence
import BrowserFlow.Proofs.Run.Simulation
import BrowserFlow.Proofs.Sources.Batch
import BrowserFlow.Proofs.Files.WellFormed
import BrowserFlow.Proofs.Files.Discovery
import BrowserFlow.Proofs.Authoring.Reordered
import BrowserFlow.Proofs.Authoring.Restated
import BrowserFlow.Proofs.Workflow.Encoding
import BrowserFlow.Proofs.Program.Canonical
import BrowserFlow.Proofs.Run.Recorder
import BrowserFlow.Proofs.Run.Listed
import BrowserFlow.Proofs.Text.Lines
import BrowserFlow.Proofs.Program.Listing
import BrowserFlow.Proofs.Text.Trimming
import BrowserFlow.Proofs.Batch.Cells
import BrowserFlow.Proofs.Batch.Sample
import BrowserFlow.Proofs.Guard.Order
import BrowserFlow.Proofs.Number.Decimal
import BrowserFlow.Proofs.Guard.Texts
import BrowserFlow.Proofs.Rendering
import BrowserFlow.Proofs.Run.Output
import BrowserFlow.Proofs.Yaml.Whole
import BrowserFlow.Proofs.Workflow.InputText
import BrowserFlow.Proofs.Sources.Acceptance
import BrowserFlow.Proofs.Batch.Reading
import BrowserFlow.Proofs.Condition.Shape
import BrowserFlow.Proofs.Program.Step
import BrowserFlow.Proofs.Reference.Recognition
import BrowserFlow.Proofs.Context.Defaults
import BrowserFlow.Proofs.Json.Levels
import BrowserFlow.Proofs.Json.Members
import BrowserFlow.Proofs.Program.Stamp
import BrowserFlow.Proofs.Files.Home
import BrowserFlow.Proofs.Settings
import BrowserFlow.Proofs.Settings.Home
