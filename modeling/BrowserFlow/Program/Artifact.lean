import BrowserFlow.Program
/-! Programs as text: the layout's version, the compiler's version and the program, as indented JSON. -/
set_option autoImplicit false

namespace BrowserFlow

open Json

def formatVersion : Nat := 1

def compilerVersion : String := "0.1.0"

structure Artifact where
  formatVersion : Nat
  compilerVersion : String
  program : Program
deriving Repr, BEq

namespace Artifact

def fields : Fields Artifact :=
  Artifact.mk <$> required "format_version" decodeHalfWord <*>
    required "compiler_version" decodeText <*> required "program" Program.decode

def decode : Decoder Artifact :=
  record "struct ProgramArtifact" ["format_version", "compiler_version", "program"] fields

def encode (artifact : Artifact) : Json :=
  object [("format_version", natural artifact.formatVersion),
    ("compiler_version", string artifact.compilerVersion),
    ("program", artifact.program.encode)]

end Artifact

inductive ArtifactError where
  | undecodable (error : DecodeError)
  | unsupported (version : Nat)
deriving Repr

def ArtifactError.message : ArtifactError → String
  | undecodable _ => "Failed to decode program artifact"
  | unsupported version =>
    "unsupported program format version " ++ Text.ofNat version ++ " (expected " ++
      Text.ofNat formatVersion ++ "); recompile the workflow"

namespace Program

def artifactText (program : Program) : String :=
  pretty (Artifact.encode ⟨formatVersion, compilerVersion, program⟩) ++ "\n"

def readArtifact (text : String) : Except ArtifactError Program :=
  match decodeDocument Artifact.decode text with
  | .error error => .error (.undecodable error)
  | .ok artifact =>
    if artifact.formatVersion = formatVersion then .ok artifact.program
    else .error (.unsupported artifact.formatVersion)

end Program

end BrowserFlow
