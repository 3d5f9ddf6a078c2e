import BrowserFlow.Proofs.Program.Compile
import BrowserFlow.Proofs.Run.Log
import BrowserFlow.Run.Recorder
/-! What a run reads of its context. Guards and values look up their references and nothing else, so that
contexts in which these come to the same values cannot be told apart by a run. -/
set_option autoImplicit false

namespace BrowserFlow

open Json

namespace Context

def AgreeOn (references : List Reference) (one other : Context) : Prop :=
  ∀ reference ∈ references, one.lookup reference = other.lookup reference

theorem AgreeOn.part {references part : List Reference} {one other : Context}
    (agree : AgreeOn references one other) (within : ∀ reference ∈ part, reference ∈ references) :
    AgreeOn part one other :=
  fun reference member => agree reference (within reference member)

theorem lookup_same_key (one other : Context) (reference : Reference)
    (same : ∀ key ∈ reference.path.head?, Entries.find? key (one.scope reference.scope) =
      Entries.find? key (other.scope reference.scope)) :
    one.lookup reference = other.lookup reference := by
  unfold lookup
  cases path : reference.path with
  | nil => rfl
  | cons first rest =>
      have found := same first (by rw [path]; rfl)
      simp only [found]

theorem restarted_agree (context : Context) (start : Nat) (references : List Reference) :
    AgreeOn references { context with start } context := by
  intro reference _
  exact lookup_same_key _ _ reference fun _ _ => by cases reference.scope <;> rfl

end Context

open Context

variable (one other : Context)

theorem segments_agree (segments : List Segment)
    (agree : AgreeOn (segments.filterMap Segment.reference?) one other) :
    segments.map (Segment.render one) = segments.map (Segment.render other) := by
  refine List.map_congr_left fun segment member => ?_
  cases segment with
  | text content => rfl
  | reference target =>
      have same := agree target (List.mem_filterMap.mpr ⟨_, member, rfl⟩)
      simp only [Segment.render, same]

theorem value_agree (expression : Expression) (agree : AgreeOn expression.references one other) :
    expression.value one = expression.value other := by
  cases expression with
  | literal value => rfl
  | lookup target =>
      have same := agree target (by simp [Expression.references])
      simp only [Expression.value, Expression.evaluate, same]
  | template segments =>
      have same := segments_agree one other segments agree
      simp only [Expression.value, Expression.evaluate, same]

mutual

theorem holds_agree (guard : Guard) (agree : AgreeOn guard.references one other) :
    guard.holds one = guard.holds other := by
  match guard with
  | .compare field comparison value =>
      have same := agree field (by simp [Guard.references])
      rw [Guard.holds, Guard.holds, same]
  | .group .all parts =>
      rw [Guard.holds, Guard.holds, all_hold_agree parts agree]
  | .group .any parts =>
      rw [Guard.holds, Guard.holds, any_holds_agree parts agree]
termination_by structural guard

theorem all_hold_agree (parts : List Guard) (agree : AgreeOn (Guard.partReferences parts) one other) :
    Guard.allHold one parts = Guard.allHold other parts := by
  match parts with
  | [] => rfl
  | part :: rest =>
      rw [Guard.allHold, Guard.allHold,
        holds_agree part (agree.part fun _ => List.mem_append_left _),
        all_hold_agree rest (agree.part fun _ => List.mem_append_right _)]
termination_by structural parts

theorem any_holds_agree (parts : List Guard)
    (agree : AgreeOn (Guard.partReferences parts) one other) :
    Guard.anyHolds one parts = Guard.anyHolds other parts := by
  match parts with
  | [] => rfl
  | part :: rest =>
      rw [Guard.anyHolds, Guard.anyHolds,
        holds_agree part (agree.part fun _ => List.mem_append_left _),
        any_holds_agree rest (agree.part fun _ => List.mem_append_right _)]
termination_by structural parts

end

theorem calls_agree (operation : Operation)
    (agree : ∀ value ∈ operation.expression?, AgreeOn value.references one other) :
    operation.calls one = operation.calls other := by
  cases operation with
  | fill selector value =>
      rw [Operation.calls, Operation.calls, value_agree one other value (agree value rfl)]
  | type value =>
      rw [Operation.calls, Operation.calls, value_agree one other value (agree value rfl)]
  | select selector value =>
      rw [Operation.calls, Operation.calls, value_agree one other value (agree value rfl)]
  | fileUpload selector files =>
      rw [Operation.calls, Operation.calls, value_agree one other files (agree files rfl)]
  | _ => rfl

theorem step_agree (step : Step) (agree : AgreeOn step.references one other) :
    step.isDue one = step.isDue other ∧ step.operation.calls one = step.operation.calls other := by
  constructor
  · unfold Step.isDue
    cases guarded : step.guard with
    | none => rfl
    | some guard =>
        refine holds_agree one other guard (agree.part fun reference member => ?_)
        simp [Step.references, guarded, member]
  · refine calls_agree one other step.operation fun value carried => agree.part fun reference member => ?_
    simp [Step.references, Option.mem_def.mp carried, member]

theorem value_error (context : Context) (expression : Expression) (error : StepError)
    (failed : expression.value context = .error error) :
    ∃ target, expression = .lookup target ∧ context.lookup target = none ∧
      error = .undefined target := by
  cases expression with
  | literal value => cases failed
  | template segments => cases failed
  | lookup target =>
      cases found : context.lookup target with
      | some value => simp [Expression.value, Expression.evaluate, found] at failed
      | none =>
          refine ⟨target, rfl, found, ?_⟩
          simpa [Expression.value, Expression.evaluate, found] using failed.symm

theorem calls_error (context : Context) (operation : Operation) (error : StepError)
    (failed : operation.calls context = .error error) :
    (∃ target, operation.expression? = some (.lookup target) ∧ context.lookup target = none ∧
      error = .undefined target) ∨ ∃ found, error = .notFiles found := by
  have absent : ∀ expression, operation.expression? = some expression →
      expression.value context = .error error →
      ∃ target, operation.expression? = some (.lookup target) ∧ context.lookup target = none ∧
        error = .undefined target := by
    intro expression carried failed
    obtain ⟨target, rfl, unknown, same⟩ := value_error context expression error failed
    exact ⟨target, carried, unknown, same⟩
  cases operation with
  | fill selector value | type value | select selector value =>
      cases valued : value.value context with
      | ok given => simp [Operation.calls, valued, bind, Except.bind, pure, Except.pure] at failed
      | error cause =>
          simp only [Operation.calls, valued, bind, Except.bind, Except.error.injEq] at failed
          exact .inl (absent value rfl (failed ▸ valued))
  | fileUpload selector files =>
      cases valued : files.value context with
      | ok given =>
          simp only [Operation.calls, valued, bind, Except.bind] at failed
          split at failed
          · cases failed
          · cases failed
            exact .inr ⟨given, rfl⟩
      | error cause =>
          simp only [Operation.calls, valued, bind, Except.bind, Except.error.injEq] at failed
          exact .inl (absent files rfl (failed ▸ valued))
  | _ => cases failed

def Program.references (program : Program) (start : Nat) : List Reference :=
  (program.steps.drop start).flatMap Step.references

namespace Driver

variable {State : Type} (driver : Driver State) (deadline : Option Nat)

theorem run_steps_agree (steps : List Step) (agree : AgreeOn (steps.flatMap Step.references) one other)
    (report : Report) (state : State) :
    driver.runSteps deadline one steps report state =
      driver.runSteps deadline other steps report state := by
  induction steps generalizing report state with
  | nil => rfl
  | cons step rest ih =>
      have here := step_agree one other step (agree.part fun reference member => by
        simp [List.flatMap_cons, member])
      have later := ih (agree.part fun reference member => by
        rw [List.flatMap_cons]
        exact List.mem_append_right _ member)
      simp only [runSteps, performStep, here.1, here.2, later]

theorem run_agree (program : Program) (start : one.start = other.start)
    (agree : AgreeOn (program.references one.start) one other) (state : State) :
    driver.run deadline program one state = driver.run deadline program other state := by
  rw [run, run, ← start, run_steps_agree one other driver deadline _ agree]

theorem run_with_retries_agree (program : Program) (start : one.start = other.start)
    (agree : AgreeOn (program.references one.start) one other) (retries : Nat) (state : State) :
    driver.runWithRetries deadline program one retries state =
      driver.runWithRetries deadline program other retries state := by
  induction retries generalizing state with
  | zero => exact run_agree one other driver deadline program start agree state
  | succ retries ih =>
      rw [runWithRetries, runWithRetries, run_agree one other driver deadline program start agree]
      simp only [ih]

structure RunAlike (program : Program) (state : State) : Prop where
  run : driver.run deadline program one state = driver.run deadline program other state
  received : driver.received deadline program one state =
    driver.received deadline program other state
  retried : ∀ retries, driver.runWithRetries deadline program one retries state =
    driver.runWithRetries deadline program other retries state
  receivedAgain : ∀ retries log,
    driver.logged.runWithRetries deadline program one retries (state, log) =
      driver.logged.runWithRetries deadline program other retries (state, log)

-- A run depends on the references that it reads, and on a scope only by the keys that these begin
-- with: all else in a context may be anything.
theorem run_depends_on_references (program : Program) (start : one.start = other.start)
    (state : State) :
    (AgreeOn (program.references one.start) one other →
      RunAlike one other driver deadline program state) ∧
    ((∀ reference ∈ program.references one.start, ∀ key ∈ reference.path.head?,
        Entries.find? key (one.scope reference.scope) =
          Entries.find? key (other.scope reference.scope)) →
      RunAlike one other driver deadline program state) := by
  have alike : AgreeOn (program.references one.start) one other →
      RunAlike one other driver deadline program state := by
    intro agree
    refine ⟨run_agree one other driver deadline program start agree state, ?_,
      fun retries => run_with_retries_agree one other driver deadline program start agree retries state,
      fun retries log =>
        run_with_retries_agree one other driver.logged deadline program start agree retries _⟩
    rw [received, received, run_agree one other driver.logged deadline program start agree]
  refine ⟨alike, fun same => alike fun reference member => ?_⟩
  exact lookup_same_key one other reference (same reference member)

theorem run_depends_on_references_sign_in :
    signInProgram.references 0 = [⟨.input, ["user"]⟩, ⟨.input, ["user"]⟩] ∧
      RunAlike ⟨[], [], [("user", string "ann")], 0⟩
        ⟨[("total", integer 3)], [("user", null)], [("note", null), ("user", string "ann")], 0⟩
        (recorder none 2) (some 3) signInProgram ⟨[], [⟨"click", none, some 1⟩]⟩ := by
  have reads : signInProgram.references 0 = [⟨.input, ["user"]⟩, ⟨.input, ["user"]⟩] := rfl
  refine ⟨reads, (run_depends_on_references ⟨[], [], [("user", string "ann")], 0⟩
    ⟨[("total", integer 3)], [("user", null)], [("note", null), ("user", string "ann")], 0⟩
    (recorder none 2) (some 3) signInProgram rfl _).2 ?_⟩
  intro reference member key first
  rw [reads] at member
  have read : reference = ⟨.input, ["user"]⟩ := by simpa using member
  subst read
  cases first
  rfl

end Driver

end BrowserFlow
