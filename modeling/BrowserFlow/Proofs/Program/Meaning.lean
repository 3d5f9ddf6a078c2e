import BrowserFlow.Proofs.Authoring.Acceptance
import BrowserFlow.Proofs.Expression
import BrowserFlow.Proofs.Json.Reading
import BrowserFlow.Proofs.Program.Compile
import BrowserFlow.Proofs.Workflow.Decoding
/-! The compiled steps of a document. Every step of the grammar compiles, to one that is performed and calls
the driver as the authored step means. -/
set_option autoImplicit false

namespace BrowserFlow

open Json Authoring

theorem text_present (key : String) (entries : Entries Json) (there : key ∈ Entries.keys entries)
    (rule : May key IsText entries) :
    Entries.find? key entries = some (string (textAt key entries)) ∧
      Condition.text? key entries = some (textAt key entries) := by
  obtain ⟨_, found, text, rfl⟩ := (must_iff key IsText entries).mpr ⟨there, rule⟩
  rw [text_at_found key text entries found]
  exact ⟨found, text_found key text entries found⟩

theorem value_at_some (key : String) (entries : Entries Json) (rule : Json → Prop)
    (somewhat : ∀ value, rule value → value.isNull = false) (may : May key rule entries) :
    valueAt? key entries = Entries.find? key entries := by
  unfold valueAt?
  cases found : Entries.find? key entries with
  | none => rfl
  | some value => simp [somewhat value (may value found)]

theorem scalar_somewhat (value : Json) (scalar : IsScalar value) : value.isNull = false := by
  rcases scalar with ⟨_, rfl⟩ | ⟨_, rfl⟩ | ⟨_, rfl⟩ | ⟨_, rfl⟩ <;> rfl

theorem condition_somewhat (value : Json) (condition : IsCondition value) :
    value.isNull = false := by
  cases condition <;> rfl

theorem files_named (files : Json) :
    Meaning.namesFiles files = (filePaths files).toOption.isSome := by
  have listed : ∀ items, items.all (fun item => item.string?.isSome) =
      (pathsOfItems items).toOption.isSome := by
    intro items
    induction items with
    | nil => rfl
    | cons item rest ih =>
        cases item with
        | string path =>
            rw [List.all_cons, ih, pathsOfItems]
            cases pathsOfItems rest <;> rfl
        | _ => rfl
  cases files with
  | array items => exact listed items
  | _ => rfl

def Operation.ofEntries (action : Action) (entries : Entries Json) : Operation :=
  let selector := textAt "selector" entries
  let value := Expression.ofValue ((Entries.find? "value" entries).getD null)
  match action with
  | .navigate => .navigate (textAt "url" entries)
  | .fill => .fill selector value
  | .click => .click selector
  | .press => .press selector (textAt "key" entries)
  | .type => .type value
  | .select => .select selector value
  | .fileUpload => .fileUpload selector (.ofText (textAt "file" entries))
  | .wait =>
    .wait selector (((Entries.find? "timeout" entries).bind natural?).getD
      AuthoredStep.defaultTimeout)
  | .rawCode => .rawCode (textAt "code" entries)

theorem action_spelled (entries : Entries Json) (action : Action)
    (named : textAt "action" entries ∈ spellings action) (other : action ≠ .rawCode) :
    textAt "action" entries = action.name := by
  cases action with
  | rawCode => exact absurd rfl other
  | _ => simpa only [spellings, Action.name, List.mem_singleton] using named

section

variable (entries : Entries Json) (rules : StepRules entries) (action : Action)
  (fields : ∀ field ∈ action.requiredFields, field ∈ Entries.keys entries)

include rules fields

theorem step_text (key : String) (needed : key ∈ action.requiredFields)
    (listed : key ∈ ["selector", "url", "key", "file", "code", "hint", "description"]) :
    Condition.text? key entries = some (textAt key entries) :=
  (text_present key entries (fields key needed) (rules.texts key listed)).2

theorem step_value (needed : "value" ∈ action.requiredFields) :
    valueAt? "value" entries = some ((Entries.find? "value" entries).getD null) := by
  rw [value_at_some "value" entries IsScalar scalar_somewhat rules.value]
  obtain ⟨value, found⟩ := (Entries.contains_iff _ _).mp
    ((Entries.contains_member _ _).mpr (fields "value" needed))
  rw [found, Option.getD_some]

theorem operation_compiled :
    (AuthoredStep.ofEntries entries).operation action = .ok (.ofEntries action entries) := by
  have text := step_text entries rules action fields
  have value := step_value entries rules action fields
  unfold AuthoredStep.operation AuthoredStep.ofEntries
  -- Each action asks for its own fields, and for these only.
  cases action with
  | navigate =>
      simp only [text "url" (by decide) (by decide)]
      rfl
  | fill =>
      simp only [text "selector" (by decide) (by decide), value (by decide)]
      rfl
  | click =>
      simp only [text "selector" (by decide) (by decide)]
      rfl
  | press =>
      simp only [text "selector" (by decide) (by decide), text "key" (by decide) (by decide)]
      rfl
  | type =>
      simp only [value (by decide)]
      rfl
  | select =>
      simp only [text "selector" (by decide) (by decide), value (by decide)]
      rfl
  | fileUpload =>
      simp only [text "selector" (by decide) (by decide), text "file" (by decide) (by decide)]
      rfl
  | wait =>
      simp only [text "selector" (by decide) (by decide)]
      rfl
  | rawCode =>
      simp only [text "code" (by decide) (by decide)]
      rfl

theorem operation_calls (named : textAt "action" entries ∈ spellings action) (context : Context) :
    (Operation.ofEntries action entries).calls context = Meaning.calls context entries := by
  have spelled := action_spelled entries action named
  have meant := Expression.of_value_value context ((Entries.find? "value" entries).getD null)
  cases action with
  | navigate =>
      simp only [Meaning.calls, spelled (by decide), Action.name]
      rfl
  | fill =>
      simp only [Meaning.calls, spelled (by decide), Action.name, Operation.ofEntries,
        Operation.calls, meant, Meaning.entryValue]
      rfl
  | click =>
      simp only [Meaning.calls, spelled (by decide), Action.name]
      rfl
  | press =>
      simp only [Meaning.calls, spelled (by decide), Action.name]
      rfl
  | type =>
      simp only [Meaning.calls, spelled (by decide), Action.name, Operation.ofEntries,
        Operation.calls, meant, Meaning.entryValue]
      rfl
  | select =>
      simp only [Meaning.calls, spelled (by decide), Action.name, Operation.ofEntries,
        Operation.calls, meant, Meaning.entryValue]
      rfl
  | fileUpload =>
      have file := (text_present "file" entries (fields "file" (by decide))
        (rules.texts "file" (by decide))).1
      simp only [Meaning.calls, spelled (by decide), Action.name, Operation.ofEntries,
        Operation.calls, Meaning.entryValue, file, Option.getD_some, Expression.of_text_value,
        files_named]
      cases Meaning.valueOf context (string (textAt "file" entries)) with
      | error error => rfl
      | ok files =>
          simp only [bind, Except.bind]
          cases filePaths files <;> rfl
  | wait =>
      simp only [Meaning.calls, spelled (by decide), Action.name, Operation.ofEntries,
        Operation.calls]
      cases found : Entries.find? "timeout" entries with
      | none => rfl
      | some value =>
          obtain ⟨timeout, rfl, _⟩ := rules.timeout value found
          rfl
  | rawCode =>
      -- The one action with two spellings.
      simp only [spellings, List.mem_cons, List.not_mem_nil, or_false] at named
      rcases named with named | named
      · simp only [Meaning.calls, named]
        rfl
      · simp only [Meaning.calls, named]
        rfl

end

structure Step.Stands (step : Step) (index : Nat) (entries : Entries Json) : Prop where
  index : step.index = index
  name : step.name = textAt "name" entries
  selector : step.selector = Condition.text? "selector" entries
  hint : step.hint = Condition.text? "hint" entries
  output : step.outputKey = Condition.text? "output" entries
  due : ∀ context, step.isDue context = Meaning.isDue context entries
  calls : ∀ context, step.operation.calls context = Meaning.calls context entries

theorem guard_stands (entries : Entries Json) (rules : StepRules entries) :
    ∃ guard, (AuthoredStep.ofEntries entries).compileGuard = .ok guard ∧
      ∀ context, guard.all (Guard.holds context) = Meaning.isDue context entries := by
  have condition : (AuthoredStep.ofEntries entries).guard = Entries.find? "when" entries :=
    value_at_some "when" entries IsCondition condition_somewhat rules.condition
  unfold AuthoredStep.compileGuard Meaning.isDue
  rw [condition]
  cases found : Entries.find? "when" entries with
  | none => exact ⟨none, rfl, fun _ => rfl⟩
  | some value =>
      obtain ⟨guard, compiled, holds⟩ := Condition.condition_stands value
        (rules.condition value found)
      refine ⟨some guard, by simp only [compiled], fun context => ?_⟩
      simp only [Option.all_some, holds]

theorem spelled_known {entries : Entries Json} {action : Action}
    (spelled : Must "action" (IsWordOf (spellings action)) entries) :
    Action.ofName? (AuthoredStep.ofEntries entries).action = some action := by
  obtain ⟨_, found, word, listed, rfl⟩ := spelled
  rw [action_name_iff, AuthoredStep.ofEntries, text_at_found "action" word entries found]
  exact listed

theorem step_stands (index : Nat) (entries : Entries Json) (rules : StepRules entries) :
    ∃ step, (AuthoredStep.ofEntries entries).compile index = .ok step ∧
      step.Stands index entries := by
  obtain ⟨action, must, fields⟩ := rules.action
  rw [demands_required] at fields
  have known := spelled_known must
  obtain ⟨_, found, word, spelled, rfl⟩ := must
  have named : textAt "action" entries = word := text_at_found "action" word entries found
  obtain ⟨guard, guarded, due⟩ := guard_stands entries rules
  refine ⟨_, (AuthoredStep.compile_ok_iff index _ _).mpr ⟨action, guard,
    .ofEntries action entries, known, guarded, operation_compiled entries rules action fields, rfl⟩,
    rfl, rfl, rfl, rfl, rfl, fun context => ?_, ?_⟩
  · rw [← due context]
    cases guard <;> rfl
  · exact operation_calls entries rules action fields (named ▸ spelled)

inductive Stand : Nat → List Step → List Json → Prop where
  | done (index : Nat) : Stand index [] []
  | step (index : Nat) (step : Step) (authored : Json) (steps : List Step) (others : List Json)
      (first : step.Stands index (entriesOf authored)) (rest : Stand (index + 1) steps others) :
      Stand index (step :: steps) (authored :: others)

theorem Stand.length {index : Nat} {steps : List Step} {authored : List Json}
    (stand : Stand index steps authored) : steps.length = authored.length := by
  induction stand with
  | done => rfl
  | step _ _ _ _ _ _ _ ih => rw [List.length_cons, List.length_cons, ih]

theorem Stand.drop {index : Nat} {steps : List Step} {authored : List Json}
    (stand : Stand index steps authored) (count : Nat) :
    Stand (index + count) (steps.drop count) (authored.drop count) := by
  induction stand generalizing count with
  | done index =>
      rw [List.drop_nil, List.drop_nil]
      exact .done _
  | step index step authored steps others first rest ih =>
      cases count with
      | zero => exact .step index step authored steps others first rest
      | succ count =>
          have shifted : index + (count + 1) = index + 1 + count := by omega
          rw [List.drop_succ_cons, List.drop_succ_cons, shifted]
          exact ih count

theorem steps_stand (index : Nat) (authored : List Json)
    (rules : ∀ item ∈ authored, IsRecord StepRules item) :
    ∃ steps, AuthoredStep.compileAll index
        (authored.map fun item => AuthoredStep.ofEntries (entriesOf item)) = .ok steps ∧
      Stand index steps authored := by
  induction authored generalizing index with
  | nil => exact ⟨[], rfl, .done index⟩
  | cons item rest ih =>
      obtain ⟨entries, rfl, itemRules⟩ := rules item List.mem_cons_self
      obtain ⟨step, compiled, stands⟩ := step_stands index entries itemRules
      obtain ⟨steps, others, stand⟩ := ih (index + 1) fun other member =>
        rules other (List.mem_cons_of_mem _ member)
      refine ⟨step :: steps, ?_, .step index step _ steps rest stands stand⟩
      exact (AuthoredStep.compile_all_cons_iff index _ _ _).mpr ⟨step, steps, compiled, others, rfl⟩

theorem document_stands (document : Json) (proper : document.wellFormed = true)
    (valid : check document = []) :
    ∃ program, compile document = .ok program ∧
      Stand 0 program.steps (Meaning.stepsOf document) := by
  obtain ⟨entries, rfl, rules⟩ := (check_iff document).mp valid
  obtain ⟨_, found, items, rfl, _, each⟩ := rules.steps
  obtain ⟨steps, compiled, stand⟩ := steps_stand 0 items each
  have authored : (Workflow.ofEntries entries).steps =
      items.map fun item => AuthoredStep.ofEntries (entriesOf item) := by
    simp only [Workflow.ofEntries, found, Option.map_some, Option.getD_some, listOf, itemsOf]
  refine ⟨_, (compile_ok_iff _ _).mpr ⟨valid, _, decode_workflow entries proper rules,
    (assemble_ok_iff _ _).mpr ⟨steps, by rw [authored, compiled], rfl⟩⟩, ?_⟩
  simpa [Meaning.stepsOf, entries_of_object, found, itemsOf] using stand

-- Documents that are read from a text are well formed, so that for them the check alone decides.
theorem read_document_compiles_iff (text : String) (document : Json)
    (found : Json.read text = .ok document) :
    (∃ program, compile document = .ok program) ↔ check document = [] := by
  constructor
  · rintro ⟨program, compiled⟩
    exact ((compile_ok_iff document program).mp compiled).1
  · intro valid
    obtain ⟨program, compiled, _⟩ := document_stands document
      (read_well_formed text document found) valid
    exact ⟨program, compiled⟩

theorem compiles_iff_valid (document : Json) (proper : document.wellFormed = true) :
    ((∃ program, compile document = .ok program) ↔ isValid document = true) ∧
      ∀ error, compile document = .error error ↔
        isValid document = false ∧ error = .invalid (check document) := by
  cases violations : check document with
  | nil =>
      obtain ⟨program, compiled, _⟩ := document_stands document proper violations
      simp [isValid, violations, compiled]
  | cons violation others => simp [isValid, compile, violations, eq_comm]

theorem compiles_iff_valid_sign_in :
    signIn.wellFormed = true ∧ (∃ program, compile signIn = .ok program) ∧
      compile (object []) = .error (.invalid (check (object []))) :=
  ⟨by decide, (compiles_iff_valid signIn (by decide)).1.mpr (by decide),
    ((compiles_iff_valid (object []) (by decide)).2 _).mpr ⟨by decide, rfl⟩⟩

end BrowserFlow
