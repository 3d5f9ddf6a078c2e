import BrowserFlow.Run
/-! What a driver receives. A driver can keep a log of its calls beside its state; the log changes nothing
about a run, and a step that succeeds has handed over exactly its calls. -/
set_option autoImplicit false

namespace BrowserFlow

-- The calls that a step asks of a driver; none when a value of the step fails.
def Step.calls (context : Context) (step : Step) : List Call :=
  (step.operation.calls context).toOption.getD []

namespace Driver

variable {State : Type}

def logged (driver : Driver State) : Driver (State × List Call) where
  delay := driver.delay
  perform call state :=
    ((driver.perform call state.1).1, (driver.perform call state.1).2, state.2 ++ [call])

def issued (driver : Driver State) (deadline : Option Nat) (elapsed : Nat) :
    List Call → State → List Call
  | [], _ => []
  | call :: rest, state =>
    match deadline.filter (· < elapsed + driver.delay) with
    | some _ => []
    | none =>
      match driver.perform call state with
      | (.error _, _) => [call]
      | (.ok _, after) => call :: issued driver deadline (elapsed + driver.delay) rest after

def stepCalls (driver : Driver State) (deadline : Option Nat) (context : Context) (step : Step)
    (state : State) : List Call :=
  match step.operation.calls context with
  | .ok calls => driver.issued deadline 0 calls state
  | .error _ => []

variable (driver : Driver State) (deadline : Option Nat) (context : Context)

theorem perform_all_logged (elapsed : Nat) (calls : List Call) (state : State) (log : List Call) :
    driver.logged.performAll deadline elapsed calls (state, log) =
      ((driver.performAll deadline elapsed calls state).1,
        (driver.performAll deadline elapsed calls state).2,
        log ++ driver.issued deadline elapsed calls state) := by
  induction calls generalizing elapsed state log with
  | nil => simp [performAll, issued]
  | cons call rest ih =>
      have sameDelay : driver.logged.delay = driver.delay := rfl
      simp only [performAll, issued, sameDelay]
      cases late : deadline.filter (· < elapsed + driver.delay) with
      | some _ => simp
      | none =>
          rcases performed : driver.perform call state with ⟨outcome, after⟩
          have loggedPerformed : driver.logged.perform call (state, log) =
              (outcome, after, log ++ [call]) := by
            simp [logged, performed]
          cases outcome with
          | error _ => simp [loggedPerformed]
          | ok produced =>
              simp only [loggedPerformed, ih]
              rcases driver.performAll deadline (elapsed + driver.delay) rest after with ⟨later, last⟩
              cases later <;> simp

theorem issued_initial (elapsed : Nat) (calls : List Call) (state : State) :
    driver.issued deadline elapsed calls state <+: calls := by
  induction calls generalizing elapsed state with
  | nil => simp [issued]
  | cons call rest ih =>
      rw [issued]
      split
      · exact List.nil_prefix
      · split
        · simp
        · exact List.cons_prefix_cons.mpr ⟨rfl, ih _ _⟩

theorem perform_all_cons_ok (elapsed : Nat) (call : Call) (rest : List Call) (state after : State)
    (produced : Option Json)
    (succeeded : driver.performAll deadline elapsed (call :: rest) state = (.ok produced, after)) :
    ∃ value middle later, deadline.filter (· < elapsed + driver.delay) = none ∧
      driver.perform call state = (.ok value, middle) ∧
      driver.performAll deadline (elapsed + driver.delay) rest middle = (.ok later, after) ∧
      produced = if call.isScript then value else later := by
  rw [performAll] at succeeded
  cases late : deadline.filter (· < elapsed + driver.delay) with
  | some limit => simp [late] at succeeded
  | none =>
      rcases performed : driver.perform call state with ⟨outcome, middle⟩
      cases outcome with
      | error error => simp [late, performed] at succeeded
      | ok value =>
          rcases others : driver.performAll deadline (elapsed + driver.delay) rest middle with
            ⟨later, last⟩
          cases later with
          | error error => simp [late, performed, others] at succeeded
          | ok later =>
              simp only [late, performed, others, Prod.mk.injEq, Except.ok.injEq] at succeeded
              obtain ⟨rfl, rfl⟩ := succeeded
              exact ⟨value, middle, later, rfl, rfl, others, rfl⟩

theorem issued_all (elapsed : Nat) (calls : List Call) (state after : State)
    (produced : Option Json)
    (succeeded : driver.performAll deadline elapsed calls state = (.ok produced, after)) :
    driver.issued deadline elapsed calls state = calls := by
  induction calls generalizing elapsed state produced with
  | nil => rfl
  | cons call rest ih =>
      obtain ⟨_, middle, later, inTime, performed, others, _⟩ :=
        perform_all_cons_ok driver deadline elapsed call rest state after produced succeeded
      simp only [issued, inTime, performed, ih _ _ _ others]

theorem perform_step_logged (step : Step) (state : State) (log : List Call) :
    driver.logged.performStep deadline context step (state, log) =
      ((driver.performStep deadline context step state).1,
        (driver.performStep deadline context step state).2,
        log ++ driver.stepCalls deadline context step state) := by
  unfold performStep stepCalls
  cases step.operation.calls context with
  | ok calls => exact perform_all_logged driver deadline 0 calls state log
  | error error => simp

theorem step_calls_succeeded (step : Step) (state after : State) (produced : Option Json)
    (succeeded : driver.performStep deadline context step state = (.ok produced, after)) :
    driver.stepCalls deadline context step state = step.calls context := by
  unfold performStep at succeeded
  unfold stepCalls Step.calls
  cases known : step.operation.calls context with
  | ok calls =>
      simp only [known] at succeeded
      exact issued_all driver deadline 0 calls state after produced succeeded
  | error error => simp [known] at succeeded

theorem step_calls_initial (step : Step) (state : State) :
    driver.stepCalls deadline context step state <+: step.calls context := by
  unfold stepCalls Step.calls
  cases step.operation.calls context with
  | ok calls => exact issued_initial driver deadline 0 calls state
  | error error => exact List.nil_prefix

def received (driver : Driver State) (deadline : Option Nat) (program : Program)
    (context : Context) (state : State) : List Call :=
  match driver.logged.run deadline program context (state, []) with
  | .ok (_, (_, calls)) => calls
  | .error _ => []

end Driver

end BrowserFlow
