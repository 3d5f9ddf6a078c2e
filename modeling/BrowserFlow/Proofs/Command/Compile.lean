import BrowserFlow.Command.Answer
import BrowserFlow.Proofs.Program.Store
/-! Compiling a workflow and finding its program again. What is compiled is saved under the name in the
document, while it is run by the name of the file that it was compiled from. -/
set_option autoImplicit false

namespace BrowserFlow

open Json

namespace Command

variable {settings : Settings} {tree : FileTree} {identifier path : String} {document : Json}

theorem loaded_well_formed (loaded : loadWorkflow settings tree identifier = .ok (path, document)) :
    document.wellFormed = true := by
  obtain ⟨_, _, loaded⟩ := (bind_ok_iff _ _ _).mp loaded
  obtain ⟨_, parsed, same⟩ := (bind_ok_iff _ _ _).mp loaded
  cases same
  exact tree.document_well_formed _ document parsed

theorem answer_compile_saves {program : Program} {answer : Answer} {after : FileTree}
    (loaded : loadWorkflow settings tree identifier = .ok (path, document))
    (compiled : BrowserFlow.compile document = .ok program)
    (answered : answerCompile settings tree identifier none false = .ok (answer, after)) :
    ∃ written, tree.saveProgram settings.programsDirectory program = .ok (written, after) := by
  simp only [answerCompile, loaded, compiled, bind, Except.bind, writeTo] at answered
  cases saved : tree.saveProgram settings.programsDirectory program with
  | error failure => simp [saved] at answered
  | ok pair =>
      simp [saved, pure, Except.pure] at answered
      exact ⟨pair.1, by rw [← answered.2]⟩

def fitsWhole : Json → Bool
  | integer whole => Number.fitsInteger whole
  | _ => false

def shop (name : String) : FileTree :=
  ⟨["home"], [(["home", "workflows"], .directory),
    (["home", "workflows", "checkout.yaml"],
      .file ("name: " ++ name ++ "\nsteps:\n- name: Pay\n  action: click\n  selector: '#pay'\n"))]⟩

theorem shop_compiled (name : String) (holds : Program → FileTree → Bool)
    (found : ((loadWorkflow .default (shop name) "checkout").toOption.any fun loaded =>
      (BrowserFlow.compile loaded.2).toOption.any fun program =>
        (answerCompile .default (shop name) "checkout" none false).toOption.any fun answered =>
          holds program answered.2) = true) :
    ∃ path document program answer after,
      loadWorkflow .default (shop name) "checkout" = .ok (path, document) ∧
      BrowserFlow.compile document = .ok program ∧
      answerCompile .default (shop name) "checkout" none false = .ok (answer, after) ∧
      holds program after = true := by
  obtain ⟨⟨path, document⟩, loaded, found⟩ := any_ok _ _ found
  obtain ⟨program, compiled, found⟩ := any_ok _ _ found
  obtain ⟨⟨answer, after⟩, answered, found⟩ := any_ok _ _ found
  exact ⟨path, document, program, answer, after, loaded, compiled, answered, found⟩

-- The program is saved by the name in its document, and looked up by what the identifier stands for.
theorem compiled_program_stored (settings : Settings) (tree after : FileTree) (identifier path : String)
    (document : Json) (program : Program) (answer : Answer)
    (loaded : loadWorkflow settings tree identifier = .ok (path, document))
    (compiled : BrowserFlow.compile document = .ok program)
    (answered : answerCompile settings tree identifier none false = .ok (answer, after))
    (printable : program.IsPrintable) : after.Stores settings.programsDirectory program := by
  obtain ⟨written, saved⟩ := answer_compile_saves loaded compiled answered
  obtain ⟨rfl, made, put⟩ := FileTree.saved_written tree after _ _ program saved
  have reloads : Program.readArtifact program.artifactText = .ok program :=
    program.settled_reloaded (compile_settled document program compiled) printable
  have fits := compiled_name_fits document program (loaded_well_formed loaded) compiled
  exact FileTree.stores_written made after settings.programsDirectory program put
    (fitting_name_proper program.name fits) reloads

theorem compiled_program_stored_checkout :
    ∃ path document program answer after,
      loadWorkflow .default (shop "checkout") "checkout" = .ok (path, document) ∧
      BrowserFlow.compile document = .ok program ∧
      answerCompile .default (shop "checkout") "checkout" none false = .ok (answer, after) ∧
      after.Stores "generated" program ∧
      after.loadCompiled "generated" "checkout" = .ok program := by
  obtain ⟨path, document, program, answer, after, loaded, compiled, answered, holds⟩ :=
    shop_compiled "checkout" (fun program after =>
      program.document.depth < jsonNestingLimit && program.document.numbers.all fitsWhole &&
        program.name == "checkout" && !after.namesProgram "checkout") (by decide +kernel)
  simp only [Bool.and_eq_true, decide_eq_true_iff, List.all_eq_true, beq_iff_eq,
    Bool.not_eq_true'] at holds
  obtain ⟨⟨⟨shallow, whole⟩, named⟩, unlike⟩ := holds
  have printable : program.IsPrintable :=
    ⟨shallow, fun _ there => whole _ there, fun double there => by cases whole _ there⟩
  have stores := compiled_program_stored .default (shop "checkout") after "checkout" path document
    program answer loaded compiled answered printable
  refine ⟨path, document, program, answer, after, loaded, compiled, answered, stores, ?_⟩
  exact stores.loaded "checkout" ⟨by rw [named]; decide, fun names => by simp [unlike] at names⟩

theorem compiled_program_missed :
    ∃ path document program answer after,
      loadWorkflow .default (shop "payment") "checkout" = .ok (path, document) ∧
      BrowserFlow.compile document = .ok program ∧
      answerCompile .default (shop "payment") "checkout" none false = .ok (answer, after) ∧
      after.loadCompiled "generated" "checkout" =
        .error (.notCompiled "checkout" "generated/checkout.program.json" "checkout") := by
  obtain ⟨path, document, program, answer, after, loaded, compiled, answered, holds⟩ :=
    shop_compiled "payment" (fun _ after =>
      !after.namesProgram "checkout" && !after.isFile "generated/checkout.program.json")
      (by decide +kernel)
  simp only [Bool.and_eq_true, Bool.not_eq_true'] at holds
  have named : workflowName "checkout" = "checkout" := by decide
  have place : programPath "generated" "checkout" = "generated/checkout.program.json" := by decide
  have unlocated := FileTree.missing_unlocated after "generated" "checkout" holds.1
    (by rw [named, place, holds.2])
  rw [named, place] at unlocated
  refine ⟨path, document, program, answer, after, loaded, compiled, answered, ?_⟩
  simp only [FileTree.loadCompiled, unlocated]

end Command

end BrowserFlow
