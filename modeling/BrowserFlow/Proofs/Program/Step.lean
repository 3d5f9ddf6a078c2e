import BrowserFlow.Proofs.Condition.Shape
import BrowserFlow.Proofs.Program.Compile
/-! Compiling a step. What it takes is said by a table: the fields that each action requires. A step without
one of them is refused by the first that is missing, once its action is known and its condition is well
formed; any other step is compiled and keeps what was written. -/
set_option autoImplicit false

namespace BrowserFlow

open Json Authoring

def Operation.texts : Operation → Entries String
  | navigate url => [("url", url)]
  | fill selector _ => [("selector", selector)]
  | click selector => [("selector", selector)]
  | press selector key => [("selector", selector), ("key", key)]
  | type _ => []
  | select selector _ => [("selector", selector)]
  | fileUpload selector _ => [("selector", selector)]
  | wait selector _ => [("selector", selector)]
  | rawCode code => [("code", code)]

namespace AuthoredStep

variable (step : AuthoredStep)

def texts : Entries (Option String) :=
  [("selector", step.selector), ("url", step.url), ("key", step.key), ("file", step.file),
    ("code", step.code)]

def Has (field : String) : Prop :=
  (∃ text, (field, some text) ∈ step.texts) ∨ field = "value" ∧ ∃ value, step.value = some value

theorem has_text_iff (field : String) (given : Option String) (listed : (field, given) ∈ step.texts) :
    step.Has field ↔ ∃ text, given = some text := by
  have distinct : (Entries.keys step.texts).Nodup := by
    simp [texts, Entries.keys]
  have found := Entries.find_distinct step.texts distinct field given listed
  constructor
  · rintro (⟨text, there⟩ | ⟨rfl, _⟩)
    · rw [Entries.find_distinct step.texts distinct field _ there, Option.some.injEq] at found
      exact ⟨text, found.symm⟩
    · simp [texts] at listed
  · rintro ⟨text, rfl⟩
    exact .inl ⟨text, listed⟩

theorem has_value_iff : step.Has "value" ↔ ∃ value, step.value = some value := by
  simp [Has, texts]

inductive FirstLacked : List String → String → Prop where
  | here (field : String) (fields : List String) (lacks : ¬step.Has field) :
      FirstLacked (field :: fields) field
  | later (field lacked : String) (fields : List String) (has : step.Has field)
      (rest : FirstLacked fields lacked) : FirstLacked (field :: fields) lacked

theorem all_or_first_lacked (fields : List String) :
    (∀ field ∈ fields, step.Has field) ∨ ∃ lacked, step.FirstLacked fields lacked := by
  induction fields with
  | nil => exact .inl (by simp)
  | cons field fields ih =>
      by_cases has : step.Has field
      · rcases ih with all | ⟨lacked, rest⟩
        · exact .inl (List.forall_mem_cons.mpr ⟨has, all⟩)
        · exact .inr ⟨lacked, .later field lacked fields has rest⟩
      · exact .inr ⟨field, .here field fields has⟩

structure Carried (action : Action) (operation : Operation) : Prop where
  action : operation.action = action
  texts : ∀ entry ∈ operation.texts, (entry.1, some entry.2) ∈ step.texts

-- What comes of demanding some fields of a step in order before its operation is made.
inductive Demanded (action : Action) : List String → Except CompileError Operation → Prop where
  | made (operation : Operation) (carried : step.Carried action operation) :
      Demanded action [] (.ok operation)
  | lacked (field : String) (fields : List String) (lacks : ¬step.Has field) :
      Demanded action (field :: fields) (.error (.missingField step.name action field))
  | there (field : String) (fields : List String) (result : Except CompileError Operation)
      (has : step.Has field) (rest : Demanded action fields result) :
      Demanded action (field :: fields) result

variable {step}

theorem demand {α : Type} (action : Action) (field : String) (fields : List String) (given : Option α)
    (next : α → Except CompileError Operation) (has : step.Has field ↔ ∃ value, given = some value)
    (rest : ∀ value, given = some value → step.Demanded action fields (next value)) :
    step.Demanded action (field :: fields) (step.requireField action field given >>= next) := by
  cases given with
  | none => exact .lacked field fields fun there => by simpa using has.mp there
  | some value => exact .there field fields _ (has.mpr ⟨value, rfl⟩) (rest value rfl)

theorem demand_text (action : Action) (field : String) (fields : List String) (given : Option String)
    (next : String → Except CompileError Operation) (listed : (field, given) ∈ step.texts)
    (rest : ∀ text, (field, some text) ∈ step.texts → step.Demanded action fields (next text)) :
    step.Demanded action (field :: fields) (step.requireField action field given >>= next) :=
  demand action field fields given next (step.has_text_iff field given listed)
    fun text same => rest text (same ▸ listed)

theorem demand_value (action : Action) (fields : List String)
    (next : Json → Except CompileError Operation)
    (rest : ∀ value, step.Demanded action fields (next value)) :
    step.Demanded action ("value" :: fields) (step.requireField action "value" step.value >>= next) :=
  demand action "value" fields step.value next step.has_value_iff fun value _ => rest value

variable (step)

theorem operation_demanded (action : Action) :
    step.Demanded action action.requiredFields (step.operation action) := by
  have selector : ("selector", step.selector) ∈ step.texts := by simp [texts]
  cases action with
  | navigate =>
      refine demand_text _ _ _ _ _ (by simp [texts]) fun url there => .made _ ⟨rfl, ?_⟩
      exact List.forall_mem_singleton.mpr there
  | fill | select =>
      refine demand_text _ _ _ _ _ selector fun selector there => ?_
      exact demand_value _ _ _ fun value => .made _ ⟨rfl, List.forall_mem_singleton.mpr there⟩
  | click | wait =>
      refine demand_text _ _ _ _ _ selector fun selector there => .made _ ⟨rfl, ?_⟩
      exact List.forall_mem_singleton.mpr there
  | press =>
      refine demand_text _ _ _ _ _ selector fun selector there => ?_
      refine demand_text _ _ _ _ _ (by simp [texts]) fun key pressed => .made _ ⟨rfl, ?_⟩
      exact List.forall_mem_cons.mpr ⟨there, List.forall_mem_singleton.mpr pressed⟩
  | type => exact demand_value _ _ _ fun value => .made _ ⟨rfl, by simp [Operation.texts]⟩
  | fileUpload =>
      refine demand_text _ _ _ _ _ selector fun selector there => ?_
      refine demand_text _ _ _ _ _ (by simp [texts]) fun file _ => .made _ ⟨rfl, ?_⟩
      exact List.forall_mem_singleton.mpr there
  | rawCode =>
      refine demand_text _ _ _ _ _ (by simp [texts]) fun code there => .made _ ⟨rfl, ?_⟩
      exact List.forall_mem_singleton.mpr there

theorem demanded_made (action : Action) (fields : List String) (result : Except CompileError Operation)
    (demanded : step.Demanded action fields result) (all : ∀ field ∈ fields, step.Has field) :
    ∃ operation, result = .ok operation ∧ step.Carried action operation := by
  induction demanded with
  | made operation carried => exact ⟨operation, rfl, carried⟩
  | lacked field fields lacks => exact absurd (all field List.mem_cons_self) lacks
  | there field fields result has rest ih =>
      exact ih fun other member => all other (List.mem_cons_of_mem _ member)

theorem demanded_lacking (action : Action) (fields : List String)
    (result : Except CompileError Operation) (demanded : step.Demanded action fields result)
    (lacked : String) (first : step.FirstLacked fields lacked) :
    result = .error (.missingField step.name action lacked) := by
  induction demanded with
  | made operation carried => cases first
  | lacked field fields lacks =>
      cases first with
      | here => rfl
      | later _ _ _ has => exact absurd has lacks
  | there field fields result has rest ih =>
      cases first with
      | here _ _ lacks => exact absurd has lacks
      | later _ _ _ _ later => exact ih later

def GuardFits : Prop :=
  ∀ condition ∈ step.guard, Condition.WellFormed condition

theorem guard_compiled (fits : step.GuardFits) : ∃ guard, step.compileGuard = .ok guard := by
  unfold compileGuard
  cases given : step.guard with
  | none => exact ⟨none, rfl⟩
  | some condition =>
      obtain ⟨guard, compiled⟩ := (Condition.compiled_iff condition).mpr (fits condition given)
      exact ⟨some guard, by simp [compiled]⟩

theorem guard_refused (unfit : ¬step.GuardFits) :
    ∃ fault, step.compileGuard = .error (.condition step.name fault) := by
  unfold compileGuard
  cases given : step.guard with
  | none => exact absurd (fun condition there => by simp [given] at there) unfit
  | some condition =>
      cases compiled : Condition.compile condition with
      | error fault => exact ⟨fault, by simp [compiled]⟩
      | ok guard =>
          refine absurd (fun other there => ?_) unfit
          rw [given, Option.mem_some_iff] at there
          exact there ▸ (Condition.compiled_iff condition).mp ⟨guard, compiled⟩

structure Kept (index : Nat) (made : Step) : Prop where
  index : made.index = index
  name : made.name = step.name
  selector : made.selector = step.selector
  hint : made.hint = step.hint
  outputKey : made.outputKey = step.output
  action : step.action ∈ spellings made.action
  operation : step.Carried made.action made.operation

variable (index : Nat)

theorem compile_unknown (unknown : ∀ action, step.action ∉ spellings action) :
    step.compile index = .error (.unknownAction step.name step.action) := by
  unfold AuthoredStep.compile
  cases known : Action.ofName? step.action with
  | none => rfl
  | some action => exact absurd ((action_name_iff step.action action).mp known) (unknown action)

theorem compile_unfit (action : Action) (known : step.action ∈ spellings action)
    (unfit : ¬step.GuardFits) :
    ∃ fault, step.compile index = .error (.condition step.name fault) := by
  obtain ⟨fault, refused⟩ := step.guard_refused unfit
  refine ⟨fault, ?_⟩
  rw [AuthoredStep.compile, (action_name_iff step.action action).mpr known]
  simp only [refused]
  rfl

theorem compile_lacking (action : Action) (known : step.action ∈ spellings action)
    (fits : step.GuardFits) (lacked : String) (first : step.FirstLacked action.requiredFields lacked) :
    step.compile index = .error (.missingField step.name action lacked) := by
  obtain ⟨guard, compiled⟩ := step.guard_compiled fits
  have refused := step.demanded_lacking action _ _ (step.operation_demanded action) lacked first
  rw [AuthoredStep.compile, (action_name_iff step.action action).mpr known]
  simp only [compiled, refused]
  rfl

theorem compile_made (action : Action) (known : step.action ∈ spellings action)
    (fits : step.GuardFits) (all : ∀ field ∈ action.requiredFields, step.Has field) :
    ∃ made, step.compile index = .ok made ∧ step.Kept index made := by
  obtain ⟨guard, compiled⟩ := step.guard_compiled fits
  obtain ⟨operation, operated, carried⟩ :=
    step.demanded_made action _ _ (step.operation_demanded action) all
  refine ⟨_, (compile_ok_iff index step _).mpr
    ⟨action, guard, operation, (action_name_iff _ _).mpr known, compiled, operated, rfl⟩, ?_⟩
  exact ⟨rfl, rfl, rfl, rfl, rfl, known, carried⟩

inductive Outcome : Except CompileError Step → Prop where
  | unknown (unknown : ∀ action, step.action ∉ spellings action) :
      Outcome (.error (.unknownAction step.name step.action))
  | unfit (action : Action) (fault : Condition.Fault) (known : step.action ∈ spellings action)
      (unfit : ¬step.GuardFits) : Outcome (.error (.condition step.name fault))
  | lacking (action : Action) (field : String) (known : step.action ∈ spellings action)
      (fits : step.GuardFits) (first : step.FirstLacked action.requiredFields field) :
      Outcome (.error (.missingField step.name action field))
  | made (action : Action) (made : Step) (known : step.action ∈ spellings action)
      (fits : step.GuardFits) (all : ∀ field ∈ action.requiredFields, step.Has field)
      (kept : step.Kept index made) : Outcome (.ok made)

theorem compile_outcome : step.Outcome index (step.compile index) := by
  by_cases known : ∃ action, step.action ∈ spellings action
  · obtain ⟨action, known⟩ := known
    by_cases fits : step.GuardFits
    · rcases step.all_or_first_lacked action.requiredFields with all | ⟨lacked, first⟩
      · obtain ⟨made, compiled, kept⟩ := step.compile_made index action known fits all
        rw [compiled]
        exact .made action made known fits all kept
      · rw [step.compile_lacking index action known fits lacked first]
        exact .lacking action lacked known fits first
    · obtain ⟨fault, refused⟩ := step.compile_unfit index action known fits
      rw [refused]
      exact .unfit action fault known fits
  · rw [not_exists] at known
    rw [step.compile_unknown index known]
    exact .unknown known

structure FollowsTable : Prop where
  unknown : step.compile index = .error (.unknownAction step.name step.action) ↔
    ∀ action, step.action ∉ spellings action
  unfit : (∃ fault, step.compile index = .error (.condition step.name fault)) ↔
    (∃ action, step.action ∈ spellings action) ∧ ¬step.GuardFits
  lacking : ∀ action field, step.compile index = .error (.missingField step.name action field) ↔
    step.action ∈ spellings action ∧ step.GuardFits ∧ step.FirstLacked action.requiredFields field
  made : (∃ made, step.compile index = .ok made) ↔
    ∃ action, step.action ∈ spellings action ∧ step.GuardFits ∧
      ∀ field ∈ action.requiredFields, step.Has field
  kept : ∀ made, step.compile index = .ok made → step.Kept index made

theorem compile_follows_table : step.FollowsTable index := by
  have outcome := step.compile_outcome index
  constructor
  · refine ⟨fun same => ?_, step.compile_unknown index⟩
    rw [same] at outcome
    cases outcome with
    | unknown unknown => exact unknown
  · refine ⟨fun ⟨fault, same⟩ => ?_, fun ⟨⟨action, known⟩, unfit⟩ =>
      step.compile_unfit index action known unfit⟩
    rw [same] at outcome
    cases outcome with
    | unfit action _ known unfit => exact ⟨⟨action, known⟩, unfit⟩
  · refine fun action field => ⟨fun same => ?_, fun ⟨known, fits, first⟩ =>
      step.compile_lacking index action known fits field first⟩
    rw [same] at outcome
    cases outcome with
    | lacking _ _ known fits first => exact ⟨known, fits, first⟩
  · constructor
    · rintro ⟨made, same⟩
      rw [same] at outcome
      cases outcome with
      | made action _ known fits all _ => exact ⟨action, known, fits, all⟩
    · rintro ⟨action, known, fits, all⟩
      obtain ⟨made, compiled, _⟩ := step.compile_made index action known fits all
      exact ⟨made, compiled⟩
  · intro made same
    rw [same] at outcome
    cases outcome with
    | made _ _ _ _ _ kept => exact kept

end AuthoredStep

end BrowserFlow
