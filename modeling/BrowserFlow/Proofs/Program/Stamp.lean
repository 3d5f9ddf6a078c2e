import BrowserFlow.Program.Artifact
import BrowserFlow.Proofs.Json.Members
/-! The version that an artifact is stamped with. The whole artifact is decoded before its version is looked
at; so an unknown version is reported where the rest has the layout of the known one, and elsewhere the
artifact cannot be decoded. -/
set_option autoImplicit false

namespace BrowserFlow

open Json

namespace Artifact

def bodyFields : Fields (String × Program) :=
  Prod.mk <$> required "compiler_version" decodeText <*> required "program" Program.decode

-- An artifact whose version is passed over.
def decodeBody : Decoder (String × Program) :=
  record "struct ProgramArtifact" ["format_version", "compiler_version", "program"] bodyFields

variable {slots : Slots}

theorem fields_made (artifact : Artifact) (made : fields.Make slots artifact) :
    (required "format_version" decodeHalfWord).Make slots artifact.formatVersion ∧
      bodyFields.Make slots (artifact.compilerVersion, artifact.program) := by
  revert artifact
  simp only [fields, Fields.made_and_iff, Fields.made_map_iff]
  intro version stamped compiler named program given
  exact ⟨stamped, (named.map Prod.mk).and given⟩

theorem fields_make (version : Nat) (body : String × Program)
    (stamped : (required "format_version" decodeHalfWord).Make slots version)
    (made : bodyFields.Make slots body) : fields.Make slots ⟨version, body.1, body.2⟩ := by
  revert body
  simp only [bodyFields, Fields.made_and_iff, Fields.made_map_iff]
  intro compiler named program given
  exact (stamped.map Artifact.mk).and named |>.and given

end Artifact

theorem stamp_made (members : Parts Member) (written : List (String × Json))
    (hold : List.Forall₂ (Member.Holds Source.Contains) members.parts written) (names : List String)
    (name : String) (known : name ∈ names) (calm : memberStray? names [] 0 members.parts = none)
    (version : Nat) (half : version < Number.twoTo 32)
    (found : Entries.find? name (Entries.merge (mergedEntries written)) = some (natural version)) :
    (required name decodeHalfWord).Make members.slots version := by
  obtain ⟨value, listed, same⟩ := found_written written name _ found
  have plain : value = natural version := by
    cases value <;> cases same
    rfl
  obtain ⟨slot, there, held⟩ := calm_slot names [] 0 members.parts written hold calm name known value
    listed
  have here : members.slots.find? name = some slot := there
  rw [plain] at held
  have seen := contents_face slot.value _ held rfl
  simp only [Fields.Make, required, here, Slot.decode, decodeHalfWord,
    natural_faced _ _ slot.value version seen half]
  rfl

namespace Program

variable (text : String) (entries : Entries Json) (version : Nat)

theorem stamped_artifact_read (read : Json.read text = .ok (object entries))
    (stamped : Entries.find? "format_version" entries = some (natural version))
    (half : version < Number.twoTo 32) (unknown : version ≠ formatVersion) :
    match decodeDocument Artifact.decodeBody text with
    | .ok _ => readArtifact text = .error (.unsupported version)
    | .error _ => ∃ error, readArtifact text = .error (.undecodable error) := by
  obtain ⟨members, written, ended, hold, rfl, decoded⟩ := document_members text entries read
  have whole : decodeDocument Artifact.decode text = readMembers _ Artifact.fields members :=
    decoded _ _ _ _
  have rest : decodeDocument Artifact.decodeBody text = readMembers _ Artifact.bodyFields members :=
    decoded _ _ _ _
  cases body : decodeDocument Artifact.decodeBody text with
  | ok body' =>
      rw [rest, read_members_iff] at body
      obtain ⟨calm, _, made⟩ := body
      have version_made := stamp_made members written hold _ "format_version" (by simp) calm version half
        stamped
      have known := (read_members_iff _ _ members _).mpr
        ⟨calm, ended, Artifact.fields_make version body' version_made made⟩
      simp only [readArtifact, whole, known, if_neg unknown]
  | error error =>
      cases artifact : decodeDocument Artifact.decode text with
      | error fault => exact ⟨fault, by simp only [readArtifact, artifact]⟩
      | ok artifact' =>
          rw [whole, read_members_iff] at artifact
          obtain ⟨calm, _, made⟩ := artifact
          have known := (read_members_iff _ _ members _).mpr
            ⟨calm, ended, (Artifact.fields_made artifact' made).2⟩
          cases (rest.symm.trans body).symm.trans known

-- An unknown version is reported exactly where the fields beside it have the known layout; everywhere
-- else it goes unnoticed.
theorem unknown_version_reported (read : Json.read text = .ok (object entries))
    (stamped : Entries.find? "format_version" entries = some (natural version))
    (half : version < Number.twoTo 32) (unknown : version ≠ formatVersion) :
    (readArtifact text = .error (.unsupported version) ↔
        ∃ body, decodeDocument Artifact.decodeBody text = .ok body) ∧
      ((∃ error, readArtifact text = .error (.undecodable error)) ↔
        ∃ error, decodeDocument Artifact.decodeBody text = .error error) := by
  have outcome := stamped_artifact_read text entries version read stamped half unknown
  cases body : decodeDocument Artifact.decodeBody text with
  | ok _ =>
      rw [body] at outcome
      simp [outcome]
  | error _ =>
      rw [body] at outcome
      obtain ⟨error, undecodable⟩ := outcome
      simp [undecodable]

def isStamped (version : Nat) : Json → Bool
  | object entries =>
    match Entries.find? "format_version" entries with
    | some (integer found) => found == version
    | _ => false
  | _ => false

theorem stamped_object (value : Json) (found : isStamped version value = true) :
    ∃ entries, value = object entries ∧
      Entries.find? "format_version" entries = some (natural version) := by
  cases value with
  | object entries =>
      rw [isStamped] at found
      split at found
      · rename_i number there
        exact ⟨entries, rfl, there.trans (congrArg _ (congrArg _ (by simpa using found)))⟩
      · cases found
  | _ => cases found

def laterStamp : String :=
  "\x7b\x22format_version\x22: 99, \x22compiler_version\x22: \x220.2.0\x22, " ++
    "\x22program\x22: \x7b\x22name\x22: \x22payment\x22, \x22steps\x22: []\x7d\x7d"

theorem unknown_version_reported_later :
    readArtifact laterStamp = .error (.unsupported 99) := by
  obtain ⟨value, read, stamped⟩ := any_ok (Json.read laterStamp) (isStamped 99) (by decide +kernel)
  obtain ⟨entries, rfl, stamp⟩ := stamped_object 99 value stamped
  obtain ⟨body, decoded, _⟩ :=
    any_ok (decodeDocument Artifact.decodeBody laterStamp) (fun _ => true) (by decide +kernel)
  exact (unknown_version_reported laterStamp entries 99 read stamp (by decide) (by decide)).1.mpr
    ⟨body, decoded⟩

def laterLayout : String :=
  "\x7b\x22format_version\x22: 2, \x22compiler_version\x22: \x220.2.0\x22, " ++
    "\x22program\x22: \x7b\x22name\x22: \x22payment\x22, \x22actions\x22: []\x7d\x7d"

def readMessage (text : String) : String :=
  match readArtifact text with
  | .ok _ => ""
  | .error error => error.message

theorem later_layout_undecodable :
    ¬ ∀ (text : String) (entries : Entries Json) (version : Nat),
      Json.read text = .ok (object entries) →
        Entries.find? "format_version" entries = some (natural version) →
          version < Number.twoTo 32 → version ≠ formatVersion →
            readArtifact text = .error (.unsupported version) := by
  intro all
  obtain ⟨value, read, stamped⟩ := any_ok (Json.read laterLayout) (isStamped 2) (by decide +kernel)
  obtain ⟨entries, rfl, stamp⟩ := stamped_object 2 value stamped
  have reported := all laterLayout entries 2 read stamp (by decide) (by decide)
  have undecodable : readMessage laterLayout = "Failed to decode program artifact" := by
    decide +kernel
  rw [readMessage, reported] at undecodable
  revert undecodable
  decide

end Program

end BrowserFlow
