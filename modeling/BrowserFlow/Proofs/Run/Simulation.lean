import BrowserFlow.Run
/-! Drivers that cannot be told apart. Where related states of two drivers answer each call alike and stay
related, steps and runs with retries come to the same from them. -/
set_option autoImplicit false

namespace BrowserFlow.Driver

variable {State Other α : Type}

structure Simulates (driver : Driver State) (other : Driver Other) (related : State → Other → Prop) :
    Prop where
  delay : driver.delay = other.delay
  outcome : ∀ call state twin, related state twin →
    (driver.perform call state).1 = (other.perform call twin).1
  after : ∀ call state twin, related state twin →
    related (driver.perform call state).2 (other.perform call twin).2

def Alike (related : State → Other → Prop) (ran : α × State) (twin : α × Other) : Prop :=
  ran.1 = twin.1 ∧ related ran.2 twin.2

section

variable {driver : Driver State} {other : Driver Other} {related : State → Other → Prop}
  (simulates : Simulates driver other related) (deadline : Option Nat) (context : Context)

include simulates

theorem perform_all_simulated (elapsed : Nat) (calls : List Call) (state : State) (twin : Other)
    (start : related state twin) :
    Alike related (driver.performAll deadline elapsed calls state)
      (other.performAll deadline elapsed calls twin) := by
  induction calls generalizing elapsed state twin with
  | nil => exact ⟨rfl, start⟩
  | cons call rest ih =>
      have outcome := simulates.outcome call state twin start
      have after := simulates.after call state twin start
      rw [performAll, performAll, simulates.delay]
      cases deadline.filter (· < elapsed + other.delay) with
      | some limit => exact ⟨rfl, start⟩
      | none =>
          rcases performed : driver.perform call state with ⟨answer, middle⟩
          rcases mirrored : other.perform call twin with ⟨echo, twinMiddle⟩
          rw [performed, mirrored] at outcome after
          cases outcome
          cases answer with
          | error error => exact ⟨rfl, after⟩
          | ok produced =>
              have later := ih (elapsed + other.delay) middle twinMiddle after
              rcases onward : driver.performAll deadline (elapsed + other.delay) rest middle with
                ⟨ending, last⟩
              rcases echoed : other.performAll deadline (elapsed + other.delay) rest twinMiddle with
                ⟨twinEnding, twinLast⟩
              rw [onward, echoed] at later
              obtain ⟨same, still⟩ := later
              cases same
              simp only [onward, echoed]
              cases ending with
              | ok value => exact ⟨rfl, still⟩
              | error error => exact ⟨rfl, still⟩

theorem perform_step_simulated (step : Step) (state : State) (twin : Other)
    (start : related state twin) :
    Alike related (driver.performStep deadline context step state)
      (other.performStep deadline context step twin) := by
  unfold performStep
  cases step.operation.calls context with
  | ok calls => exact perform_all_simulated simulates deadline 0 calls state twin start
  | error error => exact ⟨rfl, start⟩

theorem run_steps_simulated (steps : List Step) (report : Report) (state : State) (twin : Other)
    (start : related state twin) :
    Alike related (driver.runSteps deadline context steps report state)
      (other.runSteps deadline context steps report twin) := by
  induction steps generalizing report state twin with
  | nil => exact ⟨rfl, start⟩
  | cons step rest ih =>
      rw [runSteps, runSteps]
      cases step.isDue context with
      | false => exact ih report state twin start
      | true =>
          have alike := perform_step_simulated simulates deadline context step state twin start
          rcases performed : driver.performStep deadline context step state with ⟨outcome, middle⟩
          rcases mirrored : other.performStep deadline context step twin with ⟨echo, twinMiddle⟩
          rw [performed, mirrored] at alike
          obtain ⟨same, after⟩ := alike
          cases same
          cases outcome with
          | error error => exact ⟨rfl, after⟩
          | ok produced => exact ih (report.complete step produced) middle twinMiddle after

theorem retries_simulated (program : Program) (retries : Nat) (state : State) (twin : Other)
    (start : related state twin) :
    (∃ error, driver.runWithRetries deadline program context retries state = .error error ∧
        other.runWithRetries deadline program context retries twin = .error error) ∨
      ∃ ran echo, driver.runWithRetries deadline program context retries state = .ok ran ∧
        other.runWithRetries deadline program context retries twin = .ok echo ∧
        Alike related ran echo := by
  by_cases beyond : program.steps.length < context.start
  · refine .inl ⟨⟨context.start, program.steps.length⟩, ?_⟩
    cases retries with
    | zero => simp only [runWithRetries, run, if_pos beyond, and_self]
    | succ retries => simp only [runWithRetries, run, if_pos beyond, and_self]
  · refine .inr ?_
    induction retries generalizing state twin with
    | zero =>
        refine ⟨_, _, by rw [runWithRetries, run, if_neg beyond],
          by rw [runWithRetries, run, if_neg beyond], ?_⟩
        exact run_steps_simulated simulates deadline context _ .empty state twin start
    | succ retries ih =>
        have first := run_steps_simulated simulates deadline context
          (program.steps.drop context.start) .empty state twin start
        simp only [runWithRetries, run, if_neg beyond]
        rcases ran : driver.runSteps deadline context (program.steps.drop context.start) .empty state
          with ⟨report, middle⟩
        rcases mirrored : other.runSteps deadline context (program.steps.drop context.start) .empty twin
          with ⟨echo, twinMiddle⟩
        rw [ran, mirrored] at first
        obtain ⟨same, after⟩ := first
        cases same
        cases succeeded : report.success with
        | true => exact ⟨_, _, if_pos rfl, if_pos rfl, rfl, after⟩
        | false => exact ih middle twinMiddle after

end

end BrowserFlow.Driver
