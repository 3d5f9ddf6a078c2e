import BrowserFlow.Proofs.Run.Dry
/-! The attempts of a run with retries, and what they cost. Planned failures are a budget: each attempt that
fails takes one from it, and so a run that may retry as often as failures are planned succeeds. -/
set_option autoImplicit false

namespace BrowserFlow

open Json

def PlannedFailure.Finite (planned : PlannedFailure) : Prop :=
  ∃ remaining, planned.remaining = some remaining

def budgetOf : List PlannedFailure → Nat
  | [] => 0
  | planned :: rest => planned.remaining.getD 0 + budgetOf rest

namespace Recording

def Finite (recording : Recording) : Prop :=
  ∀ planned ∈ recording.failures, planned.Finite

def budget (recording : Recording) : Nat :=
  budgetOf recording.failures

structure Spent (before after : Recording) (failed : Nat) : Prop where
  finite : after.Finite
  budget : before.budget = after.budget + failed

theorem Spent.refl (recording : Recording) (finite : recording.Finite) : Spent recording recording 0 :=
  ⟨finite, rfl⟩

theorem Spent.trans {before middle after : Recording} {first second : Nat}
    (earlier : Spent before middle first) (later : Spent middle after second) :
    Spent before after (first + second) := by
  refine ⟨later.finite, ?_⟩
  have fromBefore := earlier.budget
  have fromMiddle := later.budget
  omega

end Recording

theorem charge_first_budget (call : Call) (failures charged : List PlannedFailure)
    (finite : ∀ planned ∈ failures, planned.Finite)
    (found : chargeFirst call failures = some charged) :
    (∀ planned ∈ charged, planned.Finite) ∧ budgetOf failures = budgetOf charged + 1 := by
  induction failures generalizing charged with
  | nil => cases found
  | cons planned rest ih =>
      obtain ⟨⟨remaining, known⟩, others⟩ := List.forall_mem_cons.mp finite
      by_cases applies : planned.applies call = true
      · rw [chargeFirst, if_pos applies] at found
        cases found
        have left : remaining ≠ 0 := by
          intro exhausted
          rw [PlannedFailure.applies, known, exhausted] at applies
          simp at applies
        refine ⟨List.forall_mem_cons.mpr ⟨⟨remaining - 1, by simp [PlannedFailure.charge, known]⟩,
          others⟩, ?_⟩
        simp only [budgetOf, PlannedFailure.charge, known, Option.map_some, Option.getD_some]
        omega
      · rw [chargeFirst, if_neg applies] at found
        obtain ⟨later, chargedLater, rfl⟩ := Option.map_eq_some_iff.mp found
        obtain ⟨laterFinite, less⟩ := ih later others chargedLater
        refine ⟨List.forall_mem_cons.mpr ⟨⟨remaining, known⟩, laterFinite⟩, ?_⟩
        simp only [budgetOf] at less ⊢
        omega

theorem perform_spent (calls : List Call) (recording : Recording) (finite : recording.Finite) :
    recording.Spent (Meaning.perform calls recording).2
      (Meaning.perform calls recording).1.isSome.toNat := by
  induction calls generalizing recording with
  | nil => exact .refl recording finite
  | cons call rest ih =>
      rw [Meaning.perform, Recording.record]
      cases charged : chargeFirst call recording.failures with
      | none =>
          obtain ⟨left, less⟩ := ih ⟨recording.calls ++ [call], recording.failures⟩ finite
          exact ⟨left, less⟩
      | some failures =>
          obtain ⟨left, less⟩ := charge_first_budget call recording.failures failures finite charged
          exact ⟨left, less⟩

namespace Driver

variable (scriptResult : Option Json) (deadline : Option Nat) (context : Context)

theorem perform_step_spent (step : Step) (evaluates : step.Evaluates context) (recording : Recording)
    (finite : recording.Finite) :
    ∃ outcome after,
      (recorder scriptResult 0).performStep deadline context step recording = (outcome, after) ∧
        recording.Spent after outcome.toOption.isNone.toNat := by
  obtain ⟨calls, made⟩ := calls_made context step evaluates
  have spent := perform_spent calls recording finite
  simp only [performStep, made, recorder_performs]
  rcases performed : Meaning.perform calls recording with ⟨_ | error, after⟩
  · rw [performed] at spent
    exact ⟨_, after, rfl, spent⟩
  · rw [performed] at spent
    exact ⟨_, after, rfl, spent⟩

theorem run_steps_spent (steps : List Step) (evaluate : AllEvaluate context steps) (report : Report)
    (fresh : report.failed = none) (recording : Recording) (finite : recording.Finite) :
    recording.Spent
      ((recorder scriptResult 0).runSteps deadline context steps report recording).2
      ((recorder scriptResult 0).runSteps deadline context steps report recording).1.failed.isSome.toNat := by
  induction steps generalizing report recording with
  | nil =>
      rw [runSteps, fresh]
      exact .refl recording finite
  | cons step rest ih =>
      obtain ⟨here, later⟩ := List.forall_mem_cons.mp evaluate
      rw [runSteps]
      cases due : step.isDue context with
      | false => exact ih later report fresh recording finite
      | true =>
          obtain ⟨outcome, middle, performed, spent⟩ := perform_step_spent scriptResult deadline context
            step (here due) recording finite
          rw [if_pos rfl, performed]
          cases outcome with
          | error error => exact spent
          | ok produced =>
              have others := ih later (report.complete step produced) fresh middle spent.finite
              simpa [Except.toOption] using spent.trans others

structure Attempt (State : Type) where
  before : State
  report : Report
  after : State

section

variable {State : Type}

-- The attempts of a run with retries, with its report and the state it leaves. Each attempt is a run
-- in the same context; the next one is made, if retries are left, when this one failed.
inductive Attempts (driver : Driver State) (deadline : Option Nat) (program : Program)
    (context : Context) : Nat → State → List (Attempt State) → Report → State → Prop where
  | last (retries : Nat) (state : State) (report : Report) (after : State)
      (ran : driver.run deadline program context state = .ok (report, after))
      (enough : report.success = true ∨ retries = 0) :
      Attempts driver deadline program context retries state [⟨state, report, after⟩] report after
  | again (retries : Nat) (state middle : State) (broken : Report)
      (ran : driver.run deadline program context state = .ok (broken, middle))
      (failed : broken.success = false) (later : List (Attempt State)) (report : Report)
      (after : State)
      (retried : Attempts driver deadline program context retries middle later report after) :
      Attempts driver deadline program context (retries + 1) state
        (⟨state, broken, middle⟩ :: later) report after

variable (driver : Driver State) (program : Program)

theorem retries_attempt (inside : context.start ≤ program.steps.length) (retries : Nat)
    (state : State) :
    ∃ attempts report after,
      driver.runWithRetries deadline program context retries state = .ok (report, after) ∧
        Attempts driver deadline program context retries state attempts report after := by
  induction retries generalizing state with
  | zero =>
      have ran := run_accepted driver deadline context program state inside
      exact ⟨_, _, _, ran, .last 0 state _ _ ran (Or.inr rfl)⟩
  | succ retries ih =>
      obtain ⟨first, middle, ran⟩ : ∃ first middle,
          driver.run deadline program context state = .ok (first, middle) :=
        ⟨_, _, run_accepted driver deadline context program state inside⟩
      rw [runWithRetries, ran]
      by_cases succeeded : first.success = true
      · exact ⟨_, first, middle, if_pos succeeded, .last _ state first middle ran (Or.inl succeeded)⟩
      · obtain ⟨attempts, report, after, retried, made⟩ := ih middle
        have failed : first.success = false := by simpa using succeeded
        exact ⟨_, report, after, (if_neg succeeded).trans retried,
          .again retries state middle first ran failed attempts report after made⟩

def failures (attempts : List (Attempt State)) : Nat :=
  attempts.countP fun attempt => !attempt.report.success

theorem attempts_counted (retries : Nat) (state after : State) (attempts : List (Attempt State))
    (report : Report)
    (made : Attempts driver deadline program context retries state attempts report after) :
    (report.success = true ∧ attempts.length = failures attempts + 1 ∧ attempts.length ≤ retries + 1) ∨
      (report.success = false ∧ attempts.length = failures attempts ∧ attempts.length = retries + 1) := by
  induction made with
  | last retries state report after ran enough =>
      cases succeeded : report.success with
      | true => simp [failures, succeeded]
      | false =>
          have none : retries = 0 := enough.resolve_left (by simp [succeeded])
          simp [failures, succeeded, none]
  | again retries state middle broken ran failed later report after retried ih =>
      have counted : failures (⟨state, broken, middle⟩ :: later) = failures later + 1 := by
        simp [failures, failed]
      rw [counted, List.length_cons]
      rcases ih with ⟨succeeded, length, bound⟩ | ⟨unsuccessful, length, used⟩
      · exact Or.inl ⟨succeeded, by omega, by omega⟩
      · exact Or.inr ⟨unsuccessful, by omega, by omega⟩

end

theorem run_spent (program : Program)
    (evaluate : AllEvaluate context (program.steps.drop context.start)) (recording after : Recording)
    (report : Report)
    (ran : (recorder scriptResult 0).run deadline program context recording = .ok (report, after))
    (finite : recording.Finite) : recording.Spent after report.failed.isSome.toNat := by
  have spent := run_steps_spent scriptResult deadline context _ evaluate .empty rfl recording finite
  rw [run] at ran
  by_cases beyond : program.steps.length < context.start
  · rw [if_pos beyond] at ran
    cases ran
  · rw [if_neg beyond, Except.ok.injEq] at ran
    rw [ran] at spent
    exact spent

structure Attempt.Charged (attempt : Attempt Recording) : Prop where
  failed : attempt.report.success = false → attempt.before.budget = attempt.after.budget + 1
  succeeded : attempt.report.success = true → attempt.before.budget = attempt.after.budget

theorem spent_charged (before after : Recording) (report : Report)
    (spent : before.Spent after report.failed.isSome.toNat) :
    Attempt.Charged ⟨before, report, after⟩ := by
  refine ⟨fun failed => ?_, fun succeeded => ?_⟩
  · rw [spent.budget]
    simpa [Report.success, Option.isNone_eq_false_iff] using failed
  · rw [spent.budget, report.success_iff.mp succeeded]
    rfl

theorem attempts_charged (program : Program)
    (evaluate : AllEvaluate context (program.steps.drop context.start)) (retries : Nat)
    (recording after : Recording) (attempts : List (Attempt Recording)) (report : Report)
    (finite : recording.Finite)
    (made : Attempts (recorder scriptResult 0) deadline program context retries recording attempts
      report after) :
    (∀ attempt ∈ attempts, attempt.Charged) ∧
      recording.budget = after.budget + failures attempts := by
  induction made with
  | last retries state report after ran enough =>
      have here := spent_charged state after report
        (run_spent scriptResult deadline context program evaluate state after report ran finite)
      refine ⟨List.forall_mem_singleton.mpr here, ?_⟩
      cases succeeded : report.success with
      | true => simp [failures, succeeded, here.succeeded succeeded]
      | false => simp [failures, succeeded, here.failed succeeded]
  | again retries state middle broken ran failed later report after retried ih =>
      have spent := run_spent scriptResult deadline context program evaluate state middle broken ran finite
      have here := spent_charged state middle broken spent
      obtain ⟨others, left⟩ := ih spent.finite
      refine ⟨List.forall_mem_cons.mpr ⟨here, others⟩, ?_⟩
      have first := here.failed failed
      simp only [failures, List.countP_cons, failed] at left first ⊢
      simp only [Bool.not_false, if_true]
      omega

theorem attempts_end {State : Type} (driver : Driver State) (program : Program) (retries : Nat)
    (state after : State) (attempts : List (Attempt State)) (report : Report)
    (made : Attempts driver deadline program context retries state attempts report after) :
    ∃ before, driver.run deadline program context before = .ok (report, after) := by
  induction made with
  | last retries state report after ran enough => exact ⟨state, ran⟩
  | again retries state middle broken ran failed later report after retried ih => exact ih

-- Only planned failures can end an attempt here, and each that does is used up by it.
theorem retries_within_budget (program : Program) (inside : context.start ≤ program.steps.length)
    (evaluate : AllEvaluate context (program.steps.drop context.start)) (recording : Recording)
    (finite : recording.Finite) (retries : Nat) :
    ∃ attempts report after,
      (recorder scriptResult 0).runWithRetries deadline program context retries recording =
        .ok (report, after) ∧
      Attempts (recorder scriptResult 0) deadline program context retries recording attempts report
        after ∧
      (∀ attempt ∈ attempts, attempt.Charged) ∧
      failures attempts ≤ recording.budget ∧
      (recording.budget ≤ retries → report.success = true ∧
        attempts.length ≤ recording.budget + 1 ∧ Uninterrupted context program report.completed) := by
  obtain ⟨attempts, report, after, retried, made⟩ := retries_attempt deadline context
    (recorder scriptResult 0) program inside retries recording
  obtain ⟨charged, budget⟩ := attempts_charged scriptResult deadline context program evaluate retries
    recording after attempts report finite made
  have counted := attempts_counted deadline context _ program retries recording after attempts report
    made
  refine ⟨attempts, report, after, retried, made, charged, by omega, fun enough => ?_⟩
  have succeeded : report.success = true := by
    by_contra failed
    rcases counted with ⟨success, _⟩ | ⟨_, all, used⟩
    · exact failed success
    · omega
  refine ⟨succeeded, ?_, ?_⟩
  · rcases counted with ⟨_, length, _⟩ | ⟨_, length, _⟩
    · omega
    · omega
  · obtain ⟨before, ran⟩ := attempts_end deadline context _ program retries recording after attempts
      report made
    have same := uninterrupted_completes context program inside
      ((all_evaluate_iff context _).mp evaluate)
    rw [same.every _ deadline report before after ran succeeded]
    exact same

-- A click and a fill are to fail once each: the third attempt signs in.
theorem retries_within_budget_sign_in :
    Context.start ⟨[], [], [("user", string "ann")], 0⟩ ≤ signInProgram.steps.length ∧
      AllEvaluate ⟨[], [], [("user", string "ann")], 0⟩ signInProgram.steps ∧
      Recording.Finite ⟨[], [⟨"click", some "#send", some 1⟩, ⟨"fill", none, some 1⟩]⟩ ∧
      ∃ attempts report after,
        (recorder none 0).runWithRetries none signInProgram ⟨[], [], [("user", string "ann")], 0⟩ 2
          ⟨[], [⟨"click", some "#send", some 1⟩, ⟨"fill", none, some 1⟩]⟩ = .ok (report, after) ∧
        (∀ attempt ∈ attempts, attempt.Charged) ∧ failures attempts ≤ 2 ∧ report.success = true ∧
        attempts.length ≤ 3 ∧
        Uninterrupted ⟨[], [], [("user", string "ann")], 0⟩ signInProgram report.completed := by
  have inside : Context.start ⟨[], [], [("user", string "ann")], 0⟩ ≤ signInProgram.steps.length := by
    decide
  have evaluate : AllEvaluate ⟨[], [], [("user", string "ann")], 0⟩ signInProgram.steps := by
    rw [all_evaluate_iff]
    intro step listed due
    simp only [signInProgram, List.mem_cons, List.not_mem_nil, or_false] at listed
    rcases listed with rfl | rfl | rfl
    · exact ⟨_, rfl⟩
    · exact ⟨_, rfl⟩
    · exact ⟨_, rfl⟩
  have finite : Recording.Finite ⟨[], [⟨"click", some "#send", some 1⟩, ⟨"fill", none, some 1⟩]⟩ := by
    simp [Recording.Finite, PlannedFailure.Finite]
  obtain ⟨attempts, report, after, retried, -, charged, few, enough⟩ :=
    retries_within_budget none none ⟨[], [], [("user", string "ann")], 0⟩ signInProgram inside evaluate
      ⟨[], [⟨"click", some "#send", some 1⟩, ⟨"fill", none, some 1⟩]⟩ finite 2
  obtain ⟨succeeded, length, completed⟩ := enough (Nat.le_refl 2)
  exact ⟨inside, evaluate, finite, attempts, report, after, retried, charged, few, succeeded, length,
    completed⟩

end Driver

end BrowserFlow
