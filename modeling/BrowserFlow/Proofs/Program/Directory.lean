import BrowserFlow.Proofs.Files.Directory
import BrowserFlow.Proofs.Program.Store
/-! A directory of programs through any history of saves. Each program has a file of its own in the
directory, and each name is answered with the program that was saved last under it. -/
set_option autoImplicit false

namespace BrowserFlow

open Json

theorem fitting_name_point_free (name : String)
    (fits : Authoring.Pattern.isWorkflowName name.toList = true) : '.' ∉ name.toList :=
  fun point => absurd (fitting_name_chars name fits _ point) (by decide)

theorem fitting_name_unended (name : String)
    (fits : Authoring.Pattern.isWorkflowName name.toList = true) :
    withoutEnding? artifactEnding name = none := by
  cases cut : withoutEnding? artifactEnding name with
  | none => rfl
  | some rest =>
      apply absurd _ (fitting_name_point_free name fits)
      rw [(without_ending_iff _ _ _).mp cut, String.toList_append, List.mem_append]
      exact .inr (by decide)

theorem fitting_name_workflow (name : String)
    (fits : Authoring.Pattern.isWorkflowName name.toList = true) : workflowName name = name := by
  have pointless := fitting_name_point_free name fits
  have named : Path.fileName? name = some name :=
    Path.EndsIn.file_name (.inl rfl) (fitting_name_proper name fits)
  have noDocument : Path.isDocument name = false := by
    simp [Path.isDocument, Path.extension?, named, Path.splitExtension, pointless]
  unfold workflowName
  simp only [named, Option.getD_some]
  rw [fitting_name_unended name fits]
  simp only [noDocument, Bool.false_eq_true, if_false]

namespace Program

def IsCompiled (program : Program) : Prop :=
  ∃ document : Json, document.wellFormed = true ∧ compile document = .ok program

theorem IsCompiled.fits {program : Program} (compiled : program.IsCompiled) :
    Authoring.Pattern.isWorkflowName program.name.toList = true := by
  obtain ⟨document, proper, compiled⟩ := compiled
  exact compiled_name_fits document program proper compiled

theorem IsCompiled.reloads {program : Program} (compiled : program.IsCompiled)
    (printable : program.IsPrintable) : readArtifact program.artifactText = .ok program := by
  obtain ⟨document, _, compiled⟩ := compiled
  exact program.settled_reloaded (compile_settled document program compiled) printable

end Program

namespace FileTree

-- Calls that save programs in a directory, and the programs that were saved, in their order. A call that
-- is refused saves nothing, but may have made directories.
inductive Saves (directory : String) : FileTree → List Program → FileTree → Prop where
  | nothing (tree : FileTree) : Saves directory tree [] tree
  | saved (tree made after : FileTree) (path : String) (program : Program) (later : List Program)
      (done : tree.saveProgram directory program = .ok (path, made))
      (rest : Saves directory made later after) : Saves directory tree (program :: later) after
  | refused (tree made after : FileTree) (failure : Failure) (program : Program) (later : List Program)
      (failed : tree.saveProgram directory program = .error failure) (grown : Grows tree made)
      (rest : Saves directory made later after) : Saves directory tree later after

def lastNamed? (name : String) (programs : List Program) : Option Program :=
  programs.reverse.find? fun program => program.name == name

theorem last_named_cons (name : String) (program : Program) (later : List Program) :
    lastNamed? name (program :: later) =
      (lastNamed? name later).or (if program.name = name then some program else none) := by
  simp only [lastNamed?, List.reverse_cons, List.find?_append, List.find?_singleton, beq_iff_eq]

theorem last_named_some (name : String) (programs : List Program) (last : Program)
    (found : lastNamed? name programs = some last) : last ∈ programs ∧ last.name = name := by
  refine ⟨List.mem_reverse.mp (List.mem_of_find?_eq_some found), ?_⟩
  simpa using List.find?_some found

theorem last_named_there (programs : List Program) (program : Program) (member : program ∈ programs) :
    ∃ last, lastNamed? program.name programs = some last := by
  apply Option.isSome_iff_exists.mp
  rw [lastNamed?, List.find?_isSome]
  exact ⟨program, List.mem_reverse.mpr member, by simp⟩

def HasProgram (tree : FileTree) (directory name : String) (program : Program) : Prop :=
  tree.HasFile directory (name ++ artifactEnding) program.artifactText

theorem make_parent_grows (tree made : FileTree) (path : String)
    (parent : tree.makeParent path = .ok made) : Grows tree made := by
  unfold makeParent at parent
  split at parent
  · cases parent
    exact Grows.refl tree
  · split at parent
    · rename_i created
      cases parent
      exact make_directories_grows tree made _ created
    · cases parent

theorem save_has_program (tree after : FileTree) (directory path : String) (program : Program)
    (proper : Path.IsName (program.name ++ artifactEnding))
    (saved : tree.saveProgram directory program = .ok (path, after)) :
    after.HasProgram directory program.name program ∧
      ∀ name other, name ≠ program.name → tree.HasProgram directory name other →
        after.HasProgram directory name other := by
  obtain ⟨rfl, made, parent, put⟩ := saved_steps tree after directory path program saved
  refine ⟨written_has_file made after directory _ _ proper put, fun name other different has => ?_⟩
  have apart : name ++ artifactEnding ≠ program.name ++ artifactEnding := fun same =>
    different (artifact_name_injective _ _ same)
  exact (has.grown (make_parent_grows tree made _ parent)).written proper apart put

theorem saves_has_program (directory name : String) (tree after : FileTree) (programs : List Program)
    (history : Saves directory tree programs after)
    (proper : ∀ program ∈ programs, Path.IsName (program.name ++ artifactEnding)) (program : Program)
    (answer : lastNamed? name programs = some program ∨
      lastNamed? name programs = none ∧ tree.HasProgram directory name program) :
    after.HasProgram directory name program := by
  induction history with
  | nothing tree => exact (answer.resolve_left nofun).2
  | saved tree made after path first later done rest ih =>
      obtain ⟨own, others⟩ := save_has_program tree made directory path first
        (proper first List.mem_cons_self) done
      apply ih fun program member => proper program (List.mem_cons_of_mem _ member)
      rw [last_named_cons] at answer
      cases found : lastNamed? name later with
      | some last => simpa [found] using answer
      | none =>
          rw [found, Option.none_or] at answer
          refine .inr ⟨rfl, ?_⟩
          by_cases same : first.name = name
          · have this : first = program := by simpa [same] using answer
            rw [← this, ← same]
            exact own
          · have before : tree.HasProgram directory name program := by simpa [same] using answer
            exact others name program (Ne.symm same) before
  | refused tree made after failure first later failed grown rest ih =>
      exact ih proper (answer.imp_right fun before => ⟨before.1, before.2.grown grown⟩)

structure Answers (tree : FileTree) (directory : String) (programs : List Program) (name : String) :
    Prop where
  loaded : ∃ last, lastNamed? name programs = some last ∧
    tree.loadCompiled directory name = .ok last
  filed : ∃ place, tree.DirectoryAt directory place ∧
    tree.resolve (programPath directory name) = .ok (place ++ [name ++ artifactEnding])

theorem has_program_loaded (tree : FileTree) (directory name : String) (program : Program)
    (fits : Authoring.Pattern.isWorkflowName name.toList = true)
    (reloads : Program.readArtifact program.artifactText = .ok program)
    (has : tree.HasProgram directory name program) :
    tree.loadCompiled directory name = .ok program := by
  have named := fitting_name_proper name fits
  have proper := artifact_name_proper name named.free
  have unlike : tree.namesProgram name = false := by
    unfold namesProgram
    rw [fitting_name_unended name fits]
    rfl
  have leads : tree.Leads directory name name :=
    ⟨fitting_name_workflow name fits, fun direct => by simp [unlike] at direct⟩
  have located := (located_iff tree directory name name named (has.isFile proper)).mpr leads
  have read : tree.read (programPath directory name) = .ok program.artifactText := has.read proper
  simp only [loadCompiled, located, loadProgram, read, reloads]

end FileTree

theorem programs_kept_by_name (directory : String) :
    (∀ program : Program, program.IsCompiled →
      Path.Inside directory (programPath directory program.name) (program.name ++ artifactEnding) ∧
        workflowName (programPath directory program.name) = program.name) ∧
    (∀ program other : Program, program.IsCompiled → other.IsCompiled →
      (programPath directory program.name = programPath directory other.name ↔
        program.name = other.name)) ∧
    ∀ (tree after : FileTree) (programs : List Program),
      FileTree.Saves directory tree programs after →
      (∀ program ∈ programs, program.IsCompiled ∧ program.IsPrintable) →
      ∀ program ∈ programs, after.Answers directory programs program.name := by
  refine ⟨fun program compiled => ?_, fun program other compiled otherCompiled => ?_,
    fun tree after programs history each program member => ?_⟩
  · have named := fitting_name_proper program.name compiled.fits
    exact ⟨Path.join_inside directory _ (artifact_name_proper program.name named.free),
      workflow_name_of_path directory program.name named.free⟩
  · have paths := program_path_iff directory program.name other.name
      (fitting_name_proper other.name otherCompiled.fits)
    rwa [fitting_name_workflow program.name compiled.fits] at paths
  · have proper : ∀ program ∈ programs, Path.IsName (program.name ++ artifactEnding) :=
      fun program member => artifact_name_proper program.name
        (fitting_name_proper program.name (each program member).1.fits).free
    obtain ⟨last, found⟩ := FileTree.last_named_there programs program member
    obtain ⟨lastMember, named⟩ := FileTree.last_named_some program.name programs last found
    have has := FileTree.saves_has_program directory program.name tree after programs history proper last
      (.inl found)
    have reloads := (each last lastMember).1.reloads (each last lastMember).2
    obtain ⟨place, directoryAt, resolved, _⟩ := has.resolved (proper program member)
    exact ⟨⟨last, found, FileTree.has_program_loaded after directory program.name last
      (each program member).1.fits reloads has⟩, place, directoryAt, resolved⟩

def visit (name url : String) : Json :=
  object [("name", string name), ("steps", array [
    object [("name", string "Open"), ("action", string "navigate"), ("url", string url)]])]

def visitProgram (name url : String) : Program :=
  ⟨name, none, [], [], [], [], [⟨0, "Open", .navigate, none, none, none, none, .navigate url⟩]⟩

theorem visit_printable (name url : String) : (visitProgram name url).IsPrintable := by
  have numbers : (visitProgram name url).document.numbers = [integer 1, integer 0] := by rfl
  have depth : (visitProgram name url).document.depth = 5 := by rfl
  refine ⟨by rw [depth]; decide, fun whole member => ?_, fun double member => ?_⟩
  · rw [numbers] at member
    simp only [List.mem_cons, integer.injEq, List.not_mem_nil, or_false] at member
    rcases member with rfl | rfl <;> rfl
  · simp [numbers] at member

theorem programs_kept_by_name_visits :
    ∃ after, FileTree.Saves "generated" (FileTree.empty ["home"])
        [visitProgram "shop" "https://old.test/", visitProgram "news" "https://news.test/",
          visitProgram "shop" "https://new.test/"] after ∧
      after.loadCompiled "generated" "shop" = .ok (visitProgram "shop" "https://new.test/") ∧
      after.loadCompiled "generated" "news" = .ok (visitProgram "news" "https://news.test/") ∧
      workflowName (programPath "generated" "shop") = "shop" ∧
      programPath "generated" "shop" ≠ programPath "generated" "news" := by
  obtain ⟨⟨_, first⟩, oldSaved, found⟩ := any_ok
    ((FileTree.empty ["home"]).saveProgram "generated" (visitProgram "shop" "https://old.test/"))
    (fun made => (made.2.saveProgram "generated" (visitProgram "news" "https://news.test/")).toOption.any
      fun made => (made.2.saveProgram "generated"
        (visitProgram "shop" "https://new.test/")).toOption.any fun _ => true) (by decide +kernel)
  obtain ⟨⟨_, second⟩, newsSaved, found⟩ := any_ok _ _ found
  obtain ⟨⟨_, after⟩, newSaved, _⟩ := any_ok _ _ found
  have compiled : ∀ program ∈ [visitProgram "shop" "https://old.test/",
      visitProgram "news" "https://news.test/", visitProgram "shop" "https://new.test/"],
      program.IsCompiled ∧ program.IsPrintable := by
    simp only [List.forall_mem_cons, List.not_mem_nil, IsEmpty.forall_iff, implies_true, and_true]
    exact ⟨⟨⟨visit "shop" "https://old.test/", by decide, by rfl⟩, visit_printable _ _⟩,
      ⟨⟨visit "news" "https://news.test/", by decide, by rfl⟩, visit_printable _ _⟩,
      ⟨visit "shop" "https://new.test/", by decide, by rfl⟩, visit_printable _ _⟩
  have history := FileTree.Saves.saved _ _ _ _ _ _ oldSaved (.saved _ _ _ _ _ _ newsSaved
    (.saved _ _ _ _ _ _ newSaved (.nothing after)))
  obtain ⟨paths, shared, answers⟩ := programs_kept_by_name "generated"
  have shop := compiled (visitProgram "shop" "https://new.test/") (by simp)
  have news := compiled (visitProgram "news" "https://news.test/") (by simp)
  obtain ⟨last, isLast, loaded⟩ := (answers _ after _ history compiled
    (visitProgram "shop" "https://new.test/") (by simp)).loaded
  obtain ⟨only, isOnly, newsLoaded⟩ := (answers _ after _ history compiled
    (visitProgram "news" "https://news.test/") (by simp)).loaded
  cases isLast
  cases isOnly
  exact ⟨after, history, loaded, newsLoaded, (paths _ shop.1).2,
    fun same => absurd ((shared _ _ shop.1 news.1).mp same) (by decide)⟩

end BrowserFlow
