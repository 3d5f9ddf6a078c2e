import BrowserFlow.Proofs.Sources.Soundness
import BrowserFlow.Proofs.Workflow.InputText
/-! Texts of inputs and where they are given. A context with one more value can be finished when the value
passes its check and everything else fits; so a text is accepted from the command line and from a record
just when its input has a value for it, and from an input file when it passes the check itself. -/
set_option autoImplicit false

namespace BrowserFlow

open Json

namespace Sources

variable (tree : FileTree) (program : Program)

def Accepted (taken : Except Failure Context) : Prop :=
  ∃ context, taken.bind (finish program) = .ok context

def filled (context : Context) (key : String) : Option Json :=
  (context.applyDefaults program.inputs).valueAt .input key

def Fits (parameter : Parameter) (given : Option Json) : Prop :=
  (parameter.required = true → ∃ value ∈ given, value.isNull = false) ∧
    ∀ value ∈ given, parameter.check value = .ok ()

theorem filled_set (context : Context) (name key : String) (value : Json) :
    filled program (context.set .input name value) key =
      if name = key then some value else filled program context key := by
  have before := (defaults_give_way program context).values .input key
  have after := (defaults_give_way program (context.set .input name value)).values .input key
  rw [filled, filled, after, before, Context.set_value_at]
  by_cases same : name = key
  · simp [same]
  · simp [same]

theorem inputs_pass (parameters : Entries Parameter) (context : Context)
    (pass : ∀ entry ∈ parameters, ∀ value ∈ context.valueAt .input entry.1,
      entry.2.check value = .ok ()) : checkInputs context parameters = .ok context := by
  induction parameters with
  | nil => rfl
  | cons entry rest ih =>
      obtain ⟨first, others⟩ := List.forall_mem_cons.mp pass
      rw [checkInputs]
      cases found : Entries.find? entry.1 context.input with
      | none => exact ih others
      | some value =>
          dsimp only
          rw [first value found]
          exact ih others

theorem provides_iff (context : Context) (name : String) :
    context.provides name = true ↔ ∃ value ∈ context.valueAt .input name, value.isNull = false := by
  unfold Context.provides Context.valueAt
  rw [Context.scope]
  cases Entries.find? name context.input <;> simp

theorem finishes_iff (context : Context) :
    (∃ after, finish program context = .ok after) ↔
      ∀ entry ∈ program.inputs, Fits entry.2 (filled program context entry.1) := by
  constructor
  · rintro ⟨after, finished⟩ entry declared
    obtain ⟨rfl, complete, checked⟩ := finish_ok program context after finished
    exact ⟨required_provided program.inputs _ complete entry declared,
      inputs_checked program.inputs _ _ checked entry declared⟩
  · intro fit
    have complete : (context.applyDefaults program.inputs).missingInputs program.inputs = [] := by
      rw [Context.missingInputs, List.map_eq_nil_iff, List.filter_eq_nil_iff]
      intro entry declared missing
      rw [Bool.and_eq_true, Bool.not_eq_true', Bool.eq_false_iff, Ne, provides_iff] at missing
      exact missing.2 ((fit entry declared).1 missing.1)
    have passed := inputs_pass program.inputs (context.applyDefaults program.inputs)
      fun entry declared => (fit entry declared).2
    refine ⟨context.applyDefaults program.inputs, ?_⟩
    rw [finish, complete]
    exact passed

def OthersFit (name : String) (context : Context) : Prop :=
  ∀ entry ∈ program.inputs, entry.1 ≠ name → Fits entry.2 (filled program context entry.1)

section

variable (distinct : (Entries.keys program.inputs).Nodup) (name : String) (parameter : Parameter)
  (declared : Entries.find? name program.inputs = some parameter) (context : Context)

include distinct declared

theorem set_accepted_iff (value : Json) (somewhat : value.isNull = false) :
    Accepted program (.ok (context.set .input name value)) ↔
      parameter.check value = .ok () ∧ OthersFit program name context := by
  have accepted : Accepted program (.ok (context.set .input name value)) ↔
      ∀ entry ∈ program.inputs, Fits entry.2 (if name = entry.1 then some value
        else filled program context entry.1) := by
    simp only [← filled_set]
    exact finishes_iff program _
  rw [accepted]
  constructor
  · intro fit
    constructor
    · have here := (fit (name, parameter) (Entries.find_member name parameter _ declared)).2
      rw [if_pos rfl] at here
      exact here value rfl
    · intro entry member other
      have there := fit entry member
      rwa [if_neg (Ne.symm other)] at there
  · rintro ⟨checked, others⟩ entry member
    split
    · rename_i same
      have only := Entries.find_distinct program.inputs distinct entry.1 entry.2 member
      rw [← same, declared, Option.some.injEq] at only
      rw [← only]
      refine ⟨fun _ => ⟨value, rfl, somewhat⟩, fun given found => ?_⟩
      cases found
      exact checked
    · rename_i other
      exact others entry member (Ne.symm other)

theorem coerced_accepted_iff (text : String) (refuse : InputError → Failure) :
    Accepted program
        (match parameter.kind.coerce text with
          | .ok value => .ok (context.set .input name value)
          | .error cause => .error (refuse cause)) ↔
      (∃ value, parameter.kind.coerce text = .ok value) ∧ OthersFit program name context := by
  cases coerced : parameter.kind.coerce text with
  | error cause =>
      refine iff_of_false ?_ (fun ⟨⟨value, found⟩, _⟩ => by cases found)
      rintro ⟨after, finished⟩
      cases finished
  | ok value =>
      have proper := parameter.kind.coerced_value text value coerced
      rw [set_accepted_iff program distinct name parameter declared context value
        (parameter.kind.value_somewhat value proper)]
      simp [Parameter.check, parameter.kind.value_accepted value proper]

end

structure GivenAlike (name text pair path : String) : Prop where
  pair : ∃ spelled, splitPair? pair = some (spelled, text) ∧ Text.trim spelled = name
  document : Path.isDocument path = true
  loaded : tree.loadDocument path = .ok (object [(name, string text)])

-- Only numbers that are not finite pass the check of an input file without having a value. An empty cell
-- of a record is no text that is given.
theorem texts_accepted_alike (parameter : Parameter) (text : String) :
    ((∃ value, coerceInput (some parameter) text = .ok value) ↔
        parameter.check (string text) = .ok () ∧ ¬(parameter.IsNumeric ∧ Nonfinite text)) ∧
      (∀ value, coerceInput (some parameter) text = .ok value → parameter.check value = .ok ()) ∧
      ∀ (tree : FileTree) (program : Program) (name pair path : String) (context : Context),
        (Entries.keys program.inputs).Nodup → Entries.find? name program.inputs = some parameter →
        GivenAlike tree name text pair path →
        (Accepted program (addPair program pair context) ↔
          Accepted program (addInputFile tree program path context) ∧
            ¬(parameter.IsNumeric ∧ Nonfinite text)) ∧
        (text ≠ "" →
          (Accepted program (addCell program name text context) ↔
            Accepted program (addInputFile tree program path context) ∧
              ¬(parameter.IsNumeric ∧ Nonfinite text))) := by
  have coerces : (∃ value, parameter.kind.coerce text = .ok value) ↔
      parameter.check (string text) = .ok () ∧ ¬(parameter.IsNumeric ∧ Nonfinite text) := by
    rw [← parameter.numeric_iff]
    exact parameter.kind.coerces_iff text
  refine ⟨coerces, fun value coerced => ?_, ?_⟩
  · exact parameter.kind.value_accepted value (parameter.kind.coerced_value text value coerced)
  · intro tree program name pair path context distinct declared given
    obtain ⟨spelled, split, trimmed⟩ := given.pair
    have file : Accepted program (addInputFile tree program path context) ↔
        parameter.check (string text) = .ok () ∧ OthersFit program name context := by
      rw [addInputFile, if_pos given.document, given.loaded]
      exact set_accepted_iff program distinct name parameter declared context (string text) rfl
    have taken := coerced_accepted_iff program distinct name parameter declared context text
    constructor
    · have added := taken (.input name)
      rw [coerces] at added
      rw [addPair, split, file, and_right_comm, ← added]
      dsimp only
      rw [trimmed, declared]
      rfl
    · intro full
      have added := taken (.batchField name)
      rw [coerces] at added
      have nonempty : ¬text.isEmpty = true := by simpa [String.isEmpty_iff] using full
      rw [addCell, declared, file, and_right_comm, ← added]
      exact iff_of_eq (congrArg (Accepted program) (if_neg nonempty))

def amount : Parameter := ⟨some "number", true, none, none, none⟩

def amountProgram : Program where
  name := "expense"
  description := none
  inputs := [("amount", amount), ("note", ⟨none, false, none, none, none⟩)]
  constants := []
  extractions := []
  outputs := []
  steps := []

def amountTree : FileTree :=
  ⟨["home"], [(["home", "amount.yaml"], .file "amount: \" 12.50\"\n")]⟩

def isEntry (name text : String) : Json → Bool
  | object [(key, string other)] => key == name && other == text
  | _ => false

theorem entry_only (name text : String) (value : Json) (single : isEntry name text value = true) :
    value = object [(name, string text)] := by
  unfold isEntry at single
  split at single
  · simp only [Bool.and_eq_true, beq_iff_eq] at single
    rw [single.1, single.2]
  · cases single

theorem amount_given : GivenAlike amountTree "amount" " 12.50" "amount= 12.50" "amount.yaml" := by
  obtain ⟨document, loaded, single⟩ := any_ok (amountTree.loadDocument "amount.yaml")
    (isEntry "amount" " 12.50") (by decide +kernel)
  rw [entry_only _ _ document single] at loaded
  exact ⟨⟨"amount", by decide, by decide⟩, by decide, loaded⟩

theorem texts_accepted_alike_amount :
    (Entries.keys amountProgram.inputs).Nodup ∧
      Entries.find? "amount" amountProgram.inputs = some amount ∧
      GivenAlike amountTree "amount" " 12.50" "amount= 12.50" "amount.yaml" ∧ " 12.50" ≠ "" ∧
      Accepted amountProgram (addInputFile amountTree amountProgram "amount.yaml" .empty) ∧
      Accepted amountProgram (addPair amountProgram "amount= 12.50" .empty) ∧
      Accepted amountProgram (addCell amountProgram "amount" " 12.50" .empty) := by
  have found : Entries.find? "amount" amountProgram.inputs = some amount := by rfl
  obtain ⟨pair, cell⟩ := (texts_accepted_alike amount " 12.50").2.2 amountTree amountProgram "amount"
    "amount= 12.50" "amount.yaml" .empty (by decide) found amount_given
  have paired : Accepted amountProgram (addPair amountProgram "amount= 12.50" .empty) := by
    obtain ⟨context, finished, _⟩ :=
      any_ok ((addPair amountProgram "amount= 12.50" .empty).bind (finish amountProgram))
        (fun _ => true) (by decide +kernel)
    exact ⟨context, finished⟩
  have filed := pair.mp paired
  exact ⟨by decide, found, amount_given, by decide, filed.1, paired, (cell (by decide)).mpr filed⟩

theorem nan_without_value :
    amount.check (string "nan") = .ok () ∧
      coerceInput (some amount) "nan" = .error (.unreadableNumber "nan") :=
  ⟨by rfl, by rfl⟩

end Sources

end BrowserFlow
