import BrowserFlow.Proofs.Run.Attempts
import BrowserFlow.Proofs.Sources.Precedence
/-! What a context that was put together can be relied on for: required inputs are there, inputs have the
values that their declarations ask for, and what is required, has a default or is a constant can be referred
to. A run that refers to nothing else never stops at an undefined reference. -/
set_option autoImplicit false

namespace BrowserFlow

open Json

namespace Sources

variable (tree : FileTree) (program : Program) (sources : Sources)

theorem inputs_checked (parameters : Entries Parameter) (context after : Context)
    (checked : checkInputs context parameters = .ok after) :
    ∀ entry ∈ parameters, ∀ value, Entries.find? entry.1 context.input = some value →
      entry.2.check value = .ok () := by
  induction parameters with
  | nil => simp
  | cons first rest ih =>
      rw [checkInputs] at checked
      refine List.forall_mem_cons.mpr ⟨fun value found => ?_, ?_⟩
      · simp only [found] at checked
        split at checked
        · assumption
        · cases checked
      · split at checked
        · exact ih checked
        · split at checked
          · exact ih checked
          · cases checked

theorem required_provided (parameters : Entries Parameter) (context : Context)
    (complete : context.missingInputs parameters = []) (entry : String × Parameter)
    (declared : entry ∈ parameters) (required : entry.2.required = true) :
    ∃ value, Entries.find? entry.1 context.input = some value ∧ value.isNull = false := by
  have provided : context.provides entry.1 = true := by
    by_contra absent
    have missing : entry.1 ∈ context.missingInputs parameters :=
      List.mem_map.mpr ⟨entry, List.mem_filter.mpr ⟨declared, by simp [required, absent]⟩, rfl⟩
    rw [complete] at missing
    cases missing
  unfold Context.provides at provided
  split at provided
  · rename_i value found
    exact ⟨value, found, by simpa using provided⟩
  · cases provided

theorem default_provided (context : Context) (entry : String × Parameter)
    (declared : entry ∈ program.inputs) (default : Json) (given : entry.2.default = some default) :
    ∃ value, Entries.find? entry.1 (context.applyDefaults program.inputs).input = some value := by
  have fallback : (defaultInput program entry.1).isSome = true := by
    rw [defaultInput, List.findSome?_isSome_iff]
    exact ⟨entry, declared, by simp [given]⟩
  have value : Entries.find? entry.1 (context.applyDefaults program.inputs).input =
      (context.valueAt .input entry.1).or (defaultInput program entry.1) :=
    (defaults_give_way program context).values .input entry.1
  rw [value, ← Option.isSome_iff_exists, Option.isSome_or, fallback, Bool.or_true]

inductive Supplied : Reference → Prop where
  | input (name : String) (parameter : Parameter) (declared : (name, parameter) ∈ program.inputs)
      (given : parameter.required = true ∨ ∃ default, parameter.default = some default) :
      Supplied ⟨.input, [name]⟩
  | constant (name : String)
      (listed : name ∈ Entries.keys program.constants ∨ name ∈ Entries.keys sources.constants) :
      Supplied ⟨.constants, [name]⟩

structure Sound (context : Context) : Prop where
  required : ∀ entry ∈ program.inputs, entry.2.required = true →
    ∃ value, Entries.find? entry.1 context.input = some value ∧ value.isNull = false
  checked : ∀ entry ∈ program.inputs, ∀ value,
    Entries.find? entry.1 context.input = some value → entry.2.check value = .ok ()
  resolved : ∀ reference, Supplied program sources reference →
    ∃ value, context.lookup reference = some value

theorem built_sound (record : Option Batch.Record) (context : Context)
    (built : sources.context tree program record = .ok context) : Sound program sources context := by
  have constants := context_constants tree program sources record context built
  obtain ⟨supplied, _, finished⟩ := context_supplied tree program sources record context built
  obtain ⟨filled, complete, accepted⟩ := finish_ok program supplied context finished
  have required := required_provided program.inputs context complete
  refine ⟨required, inputs_checked program.inputs context context accepted, fun reference known => ?_⟩
  cases known with
  | input name parameter declared given =>
      rw [Segment.lookup_single]
      rcases given with needed | ⟨default, given⟩
      · obtain ⟨value, found, _⟩ := required (name, parameter) declared needed
        exact ⟨value, found⟩
      · rw [filled]
        exact default_provided program supplied (name, parameter) declared default given
  | constant name listed =>
      rw [Segment.lookup_single, Context.scope, constants, ← Option.isSome_iff_exists, Option.isSome_or,
        Bool.or_eq_true, Option.isSome_iff_exists, Option.isSome_iff_exists]
      exact listed.imp
        (fun there => (Entries.contains_iff _ _).mp ((Entries.contains_member _ _).mpr there))
        (fun there => (Entries.contains_iff _ _).mp ((Entries.contains_member _ _).mpr there))

end Sources

def Report.Defined (report : Report) : Prop :=
  ∀ failed ∈ report.failed, ∀ reference, failed.error ≠ .undefined reference

def Step.Resolves (context : Context) (step : Step) : Prop :=
  ∀ target, step.operation.expression? = some (.lookup target) →
    ∃ value, context.lookup target = some value

namespace Driver

variable {State : Type} (driver : Driver State) (deadline : Option Nat) (context : Context)

theorem perform_all_defined (elapsed : Nat) (calls : List Call) (state after : State)
    (error : StepError) (reference : Reference)
    (failed : driver.performAll deadline elapsed calls state = (.error error, after)) :
    error ≠ .undefined reference := by
  induction calls generalizing elapsed state with
  | nil => cases failed
  | cons call rest ih =>
      rw [performAll] at failed
      split at failed
      · cases failed
        simp
      · split at failed
        · cases failed
          simp
        · rename_i middle performed
          rcases others : driver.performAll deadline (elapsed + driver.delay) rest middle with
            ⟨later, last⟩
          rw [others] at failed
          cases later with
          | ok value => cases failed
          | error cause =>
              cases failed
              exact ih _ _ others

theorem perform_step_defined (step : Step) (resolves : step.Resolves context) (state after : State)
    (error : StepError) (reference : Reference)
    (failed : driver.performStep deadline context step state = (.error error, after)) :
    error ≠ .undefined reference := by
  unfold performStep at failed
  cases made : step.operation.calls context with
  | ok calls =>
      rw [made] at failed
      exact perform_all_defined driver deadline 0 calls state after error reference failed
  | error cause =>
      rw [made] at failed
      cases failed
      rcases calls_error context step.operation error made with
        ⟨target, carried, absent, _⟩ | ⟨found, rfl⟩
      · obtain ⟨value, present⟩ := resolves target carried
        rw [absent] at present
        cases present
      · exact nofun

theorem run_steps_defined (steps : List Step) (resolve : ∀ step ∈ steps, step.Resolves context)
    (report : Report) (fresh : report.failed = none) (state : State) :
    (driver.runSteps deadline context steps report state).1.Defined := by
  induction steps generalizing report state with
  | nil =>
      intro failed known
      rw [runSteps, fresh] at known
      cases known
  | cons step rest ih =>
      obtain ⟨here, later⟩ := List.forall_mem_cons.mp resolve
      rw [runSteps]
      cases step.isDue context with
      | false => exact ih later report fresh state
      | true =>
          rcases performed : driver.performStep deadline context step state with ⟨outcome, after⟩
          rw [if_pos rfl]
          cases outcome with
          | ok produced => exact ih later (report.complete step produced) fresh after
          | error error =>
              intro failed known reference
              cases known
              exact perform_step_defined driver deadline context step here state after error reference
                performed

structure NeverUndefined (program : Program) : Prop where
  run : ∀ state report after,
    driver.run deadline program context state = .ok (report, after) → report.Defined
  retried : ∀ retries state report after,
    driver.runWithRetries deadline program context retries state = .ok (report, after) →
      report.Defined
  attempts : ∀ retries state attempts report after,
    Attempts driver deadline program context retries state attempts report after →
      ∀ attempt ∈ attempts, attempt.report.Defined

theorem run_defined (program : Program) (resolve : ∀ step ∈ program.steps, step.Resolves context)
    (state after : State) (report : Report)
    (ran : driver.run deadline program context state = .ok (report, after)) : report.Defined := by
  have inside := fun step member => resolve step (List.mem_of_mem_drop (i := context.start) member)
  have defined := run_steps_defined driver deadline context _ inside .empty rfl state
  unfold run at ran
  split at ran
  · cases ran
  · rw [Except.ok.injEq] at ran
    rw [ran] at defined
    exact defined

theorem attempts_defined (program : Program)
    (resolve : ∀ step ∈ program.steps, step.Resolves context) (retries : Nat) (state after : State)
    (attempts : List (Attempt State)) (report : Report)
    (made : Attempts driver deadline program context retries state attempts report after) :
    ∀ attempt ∈ attempts, attempt.report.Defined := by
  induction made with
  | last retries state report after ran enough =>
      exact List.forall_mem_singleton.mpr
        (run_defined driver deadline context program resolve state after report ran)
  | again retries state middle broken ran failed later report after retried ih =>
      exact List.forall_mem_cons.mpr
        ⟨run_defined driver deadline context program resolve state middle broken ran, ih⟩

theorem retried_defined (program : Program)
    (resolve : ∀ step ∈ program.steps, step.Resolves context) (retries : Nat) (state after : State)
    (report : Report)
    (ran : driver.runWithRetries deadline program context retries state = .ok (report, after)) :
    report.Defined := by
  induction retries generalizing state with
  | zero => exact run_defined driver deadline context program resolve state after report ran
  | succ retries ih =>
      rw [runWithRetries] at ran
      split at ran
      · cases ran
      · rename_i first middle started
        split at ran
        · cases ran
          exact run_defined driver deadline context program resolve state after report started
        · exact ih middle ran

theorem resolving_never_undefined (program : Program)
    (resolve : ∀ step ∈ program.steps, step.Resolves context) :
    NeverUndefined driver deadline context program :=
  ⟨fun state report after => run_defined driver deadline context program resolve state after report,
    fun retries state report after =>
      retried_defined driver deadline context program resolve retries state after report,
    fun retries state attempts report after =>
      attempts_defined driver deadline context program resolve retries state after attempts report⟩

end Driver

namespace Sources

variable (tree : FileTree) (program : Program) (sources : Sources)

theorem context_sound (record : Option Batch.Record) (context : Context)
    (built : sources.context tree program record = .ok context) :
    Sound program sources context ∧
      ((∀ step ∈ program.steps, ∀ value ∈ step.operation.expression?,
          ∀ reference ∈ value.references, Supplied program sources reference) →
        ∀ (start : Nat) {State : Type} (driver : Driver State) (deadline : Option Nat),
          driver.NeverUndefined deadline { context with start := start } program) := by
  have sound := built_sound tree program sources record context built
  refine ⟨sound, fun supplied start State driver deadline => ?_⟩
  refine driver.resolving_never_undefined deadline _ program fun step member target carried => ?_
  obtain ⟨value, found⟩ := sound.resolved target
    (supplied step member (.lookup target) carried target (by simp [Expression.references]))
  refine ⟨value, ?_⟩
  rw [← found]
  exact Context.restarted_agree context start [target] target (List.mem_singleton_self target)

theorem context_sound_receipt :
    ∃ context,
      receiptSources.context receiptTree receiptProgram (some receiptRecord) = .ok context ∧
        Sound receiptProgram receiptSources context ∧
        (∀ step ∈ receiptProgram.steps, ∀ value ∈ step.operation.expression?,
          ∀ reference ∈ value.references, Supplied receiptProgram receiptSources reference) ∧
        (recorder none 0).NeverUndefined none { context with start := 0 } receiptProgram := by
  obtain ⟨context, built⟩ := receipt_context_built
  obtain ⟨sound, never⟩ := context_sound receiptTree receiptProgram receiptSources (some receiptRecord)
    context built
  have supplied : ∀ step ∈ receiptProgram.steps, ∀ value ∈ step.operation.expression?,
      ∀ reference ∈ value.references, Supplied receiptProgram receiptSources reference := by
    intro step member value carried reference listed
    simp only [receiptProgram, List.mem_cons, List.not_mem_nil, or_false] at member
    rcases member with rfl | rfl
    · cases carried
      simp only [Expression.references, List.mem_singleton] at listed
      exact listed ▸ .input "receipt" _ List.mem_cons_self (.inl rfl)
    · cases carried
      simp only [Expression.references, Segment.reference?, List.filterMap_cons, List.filterMap_nil,
        List.mem_cons, List.not_mem_nil, or_false] at listed
      rcases listed with rfl | rfl
      · exact .input "note" _ (List.mem_cons_of_mem _ (List.mem_cons_of_mem _ List.mem_cons_self))
          (.inr ⟨_, rfl⟩)
      · exact .constant "reason" (.inl List.mem_cons_self)
  exact ⟨context, built, sound, supplied, never supplied 0 (recorder none 0) none⟩

end Sources

end BrowserFlow
