import BrowserFlow.Program.Store
import BrowserFlow.Proofs.Authoring.Acceptance
import BrowserFlow.Proofs.Files.FileTree
import BrowserFlow.Proofs.Files.Path
import BrowserFlow.Proofs.Program.Artifact
import BrowserFlow.Proofs.Workflow.Decoding
import BrowserFlow.Proofs.Yaml.Document
/-! Programs in a directory. A program is saved in a file named for its own name, and an identifier is
looked up in a file named for what it stands for: the two are one file just when the names are one. -/
set_option autoImplicit false

namespace BrowserFlow

open Json

theorem without_ending_iff (ending text rest : String) :
    withoutEnding? ending text = some rest ↔ text = rest ++ ending := by
  have reversed : ending.toList.reverse.isPrefixOf text.toList.reverse = true ↔
      ending.toList <:+ text.toList := by
    rw [List.isPrefixOf_iff_prefix, List.reverse_prefix]
  constructor
  · intro found
    unfold withoutEnding? at found
    simp only at found
    split at found
    · rename_i ends
      obtain ⟨front, written⟩ := reversed.mp ends
      have same : rest = String.ofList front := by
        simpa [← written] using found.symm
      rw [same, ← String.toList_inj, ← written]
      simp
    · cases found
  · rintro rfl
    have ends := reversed.mpr ⟨rest.toList, (String.toList_append (s := rest) (t := ending)).symm⟩
    simp only [withoutEnding?, if_pos ends]
    simp

theorem workflow_name_inside (identifier name : String) (named : Path.fileName? identifier = some name) :
    ∀ c ∈ (workflowName identifier).toList, c ∈ name.toList := by
  intro c inside
  unfold workflowName at inside
  simp only [named, Option.getD_some] at inside
  split at inside
  · rename_i workflow cut
    rw [(without_ending_iff _ _ _).mp cut, String.toList_append]
    exact List.mem_append_left _ inside
  · split at inside
    · rw [Path.stem?, named] at inside
      exact Path.split_extension_inside name c inside
    · exact inside

theorem workflow_name_unnamed (identifier : String) (unnamed : Path.fileName? identifier = none) :
    workflowName identifier = identifier ∨ identifier = workflowName identifier ++ artifactEnding := by
  have noDocument : Path.isDocument identifier = false := by
    simp [Path.isDocument, Path.extension?, unnamed]
  unfold workflowName
  simp only [unnamed, Option.getD_none, noDocument]
  cases cut : withoutEnding? artifactEnding identifier with
  | none => exact .inl rfl
  | some workflow => exact .inr ((without_ending_iff _ _ _).mp cut)

theorem artifact_name_proper (name : String) (free : Path.separator ∉ name.toList) :
    Path.IsName (name ++ artifactEnding) := by
  have ending : artifactEnding.toList.length = 13 := by simp [artifactEnding]
  have long : (name ++ artifactEnding).toList.length = name.toList.length + 13 := by
    rw [String.toList_append, List.length_append, ending]
  have unlike : ∀ other : String, other.toList.length < 13 → name ++ artifactEnding ≠ other := by
    rintro other short rfl
    omega
  refine ⟨?_, unlike "" (by simp), unlike "." (by simp), unlike ".." (by simp)⟩
  rw [String.toList_append, List.mem_append, not_or]
  exact ⟨free, by decide⟩

theorem program_path_file_name (directory name : String) (free : Path.separator ∉ name.toList) :
    Path.fileName? (programPath directory name) = some (name ++ artifactEnding) :=
  (Path.join_ends_in directory _).file_name (artifact_name_proper name free)

theorem workflow_name_of_path (directory name : String) (free : Path.separator ∉ name.toList) :
    workflowName (programPath directory name) = name := by
  have cut := (without_ending_iff artifactEnding (name ++ artifactEnding) name).mpr rfl
  unfold workflowName
  simp only [program_path_file_name directory name free, Option.getD_some]
  rw [cut]

theorem artifact_name_injective (name other : String)
    (same : name ++ artifactEnding = other ++ artifactEnding) : name = other := by
  have cut := (without_ending_iff artifactEnding (name ++ artifactEnding) name).mpr rfl
  rw [same, (without_ending_iff artifactEnding _ other).mpr rfl] at cut
  exact (Option.some.inj cut).symm

-- The file for an identifier is the file for a name just when the identifier stands for the name. An
-- identifier that stands for a text with a slash in it has no file name; but the file for a name has one.
theorem program_path_iff (directory identifier name : String) (proper : Path.IsName name) :
    programPath directory (workflowName identifier) = programPath directory name ↔
      workflowName identifier = name := by
  refine ⟨fun same => ?_, fun same => by rw [same]⟩
  have file : Path.fileName? (programPath directory (workflowName identifier)) =
      some (name ++ artifactEnding) := by
    rw [same, program_path_file_name directory name proper.free]
  by_cases slash : Path.separator ∈ (workflowName identifier).toList
  · have unnamed : Path.fileName? identifier = none := by
      cases named : Path.fileName? identifier with
      | none => rfl
      | some found =>
          exact absurd (workflow_name_inside identifier found named _ slash)
            (Path.file_name_free identifier found named)
    obtain ⟨front, tail, written, free⟩ := Path.last_separator _ slash
    have behind : ∀ path, Path.EndsIn path (workflowName identifier ++ artifactEnding) →
        Path.fileName? path = some (tail ++ artifactEnding) := fun path ends => by
      have reached : Path.EndsIn path (tail ++ artifactEnding) :=
        ends.behind front (by simp [written])
      exact reached.file_name (artifact_name_proper tail free)
    have same : tail = name := by
      rw [behind (programPath _ _) (Path.join_ends_in directory _), Option.some.injEq] at file
      exact artifact_name_injective tail name file
    rcases workflow_name_unnamed identifier unnamed with alone | whole
    · have ends : Path.EndsIn identifier name := .inr ⟨front, by rw [← same, ← written, alone]⟩
      simp [ends.file_name proper] at unnamed
    · simp [behind identifier (.inl whole)] at unnamed
  · rw [program_path_file_name directory _ slash, Option.some.injEq] at file
    exact artifact_name_injective _ _ file

namespace FileTree

-- Whether an identifier is the path of a program's file, or at least of a file that is named like one.
def namesProgram (tree : FileTree) (identifier : String) : Bool :=
  (withoutEnding? artifactEnding identifier).isSome && tree.isFile identifier

def Leads (tree : FileTree) (directory name identifier : String) : Prop :=
  workflowName identifier = name ∧
    (tree.namesProgram identifier = true → identifier = programPath directory name)

theorem located_iff (tree : FileTree) (directory name identifier : String) (proper : Path.IsName name)
    (there : tree.isFile (programPath directory name) = true) :
    tree.locateProgram directory identifier = .ok (programPath directory name) ↔
      tree.Leads directory name identifier := by
  unfold locateProgram
  rw [← namesProgram]
  by_cases direct : tree.namesProgram identifier = true
  · rw [if_pos direct, Except.ok.injEq]
    refine ⟨fun same => ⟨?_, fun _ => same⟩, fun leads => leads.2 direct⟩
    rw [same, workflow_name_of_path directory name proper.free]
  · rw [if_neg direct]
    constructor
    · intro located
      simp only at located
      split at located
      · exact ⟨(program_path_iff directory identifier name proper).mp (Except.ok.inj located),
          fun named => absurd named direct⟩
      · cases located
    · intro leads
      simp only [leads.1, there, if_true]

theorem missing_unlocated (tree : FileTree) (directory identifier : String)
    (unlike : tree.namesProgram identifier = false)
    (missing : tree.isFile (programPath directory (workflowName identifier)) = false) :
    tree.locateProgram directory identifier =
      .error (.notCompiled (workflowName identifier)
        (programPath directory (workflowName identifier)) identifier) := by
  unfold locateProgram
  rw [← namesProgram, unlike]
  simp [missing]

theorem saved_steps (tree after : FileTree) (directory path : String) (program : Program)
    (saved : tree.saveProgram directory program = .ok (path, after)) :
    path = programPath directory program.name ∧
      ∃ made : FileTree, tree.makeParent path = .ok made ∧
        made.write path program.artifactText = .ok after := by
  obtain ⟨written, writes, same⟩ := (map_ok_iff _ _ _).mp saved
  cases same
  refine ⟨rfl, ?_⟩
  unfold writeProgram at writes
  split at writes
  · cases writes
  · rename_i made parent
    split at writes
    · rename_i put
      cases writes
      exact ⟨made, parent, put⟩
    · cases writes

theorem saved_written (tree after : FileTree) (directory path : String) (program : Program)
    (saved : tree.saveProgram directory program = .ok (path, after)) :
    path = programPath directory program.name ∧
      ∃ made : FileTree, made.write path program.artifactText = .ok after := by
  obtain ⟨named, made, _, put⟩ := saved_steps tree after directory path program saved
  exact ⟨named, made, put⟩

structure Stores (tree : FileTree) (directory : String) (program : Program) : Prop where
  kept : tree.loadProgram (programPath directory program.name) = .ok program
  located : ∀ identifier,
    tree.locateProgram directory identifier = .ok (programPath directory program.name) ↔
      tree.Leads directory program.name identifier
  loaded : ∀ identifier, tree.Leads directory program.name identifier →
    tree.loadCompiled directory identifier = .ok program

theorem stores_written (made after : FileTree) (directory : String) (program : Program)
    (put : made.write (programPath directory program.name) program.artifactText = .ok after)
    (proper : Path.IsName program.name)
    (reloads : Program.readArtifact program.artifactText = .ok program) :
    after.Stores directory program := by
  have kept : after.loadProgram (programPath directory program.name) = .ok program := by
    simp only [loadProgram, written_read made after _ _ put, reloads]
  have located := fun identifier => located_iff after directory program.name identifier proper
    (written_is_file made after _ _ put)
  refine ⟨kept, located, fun identifier leads => ?_⟩
  simp only [loadCompiled, (located identifier).mpr leads, kept]

end FileTree

theorem compiled_name_fits (document : Json) (program : Program) (proper : document.wellFormed = true)
    (compiled : compile document = .ok program) :
    Authoring.Pattern.isWorkflowName program.name.toList = true := by
  obtain ⟨valid, workflow, decoded, assembled⟩ := (compile_ok_iff document program).mp compiled
  obtain ⟨entries, rfl, rules⟩ := (Authoring.check_iff document).mp valid
  rw [decode_workflow entries proper rules, Except.ok.injEq] at decoded
  obtain ⟨_, _, rfl⟩ := (assemble_ok_iff workflow program).mp assembled
  obtain ⟨value, found, text, rfl, fits⟩ := rules.name
  have named : workflow.name = text := by
    rw [← decoded]
    simp [Workflow.ofEntries, textAt, Condition.text?, found, Json.string?]
  rw [named]
  exact (Authoring.Pattern.accepts_iff .workflowName text).mpr fits

theorem fitting_name_chars (name : String)
    (fits : Authoring.Pattern.isWorkflowName name.toList = true) :
    ∀ c ∈ name.toList, (Authoring.Pattern.startsName c || c == '-') = true := by
  cases chars : name.toList with
  | nil => simp
  | cons first rest =>
      simp only [chars, Authoring.Pattern.isWorkflowName, Bool.and_eq_true, List.all_eq_true] at fits
      exact List.forall_mem_cons.mpr ⟨by rw [fits.1]; rfl, fits.2⟩

theorem fitting_name_proper (name : String)
    (fits : Authoring.Pattern.isWorkflowName name.toList = true) : Path.IsName name := by
  have each := fitting_name_chars name fits
  refine ⟨fun slash => absurd (each _ slash) (by decide), ?_, ?_, ?_⟩
  · rintro rfl
    cases fits
  · rintro rfl
    cases fits
  · rintro rfl
    cases fits

end BrowserFlow
