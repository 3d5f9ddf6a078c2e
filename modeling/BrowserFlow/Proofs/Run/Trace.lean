import Mathlib.Data.List.Basic
import BrowserFlow.Proofs.Program.Compile
import BrowserFlow.Proofs.Run.Log
import BrowserFlow.Run.Recorder
/-! The trace of a run. A run attempts the due steps in order up to the first one that fails; the driver
receives their calls and no others, and the report names exactly the steps that were completed. -/
set_option autoImplicit false

namespace BrowserFlow

open Json

namespace Program

def due (program : Program) (context : Context) : List Nat :=
  (List.range' context.start (program.steps.length - context.start)).filter fun position =>
    (program.steps[position]?).any (Step.isDue context)

def stepsAt (program : Program) (positions : List Nat) : List Step :=
  positions.filterMap fun position => program.steps[position]?

def completedAt (program : Program) (positions : List Nat) : List CompletedStep :=
  positions.filterMap fun position =>
    (program.steps[position]?).map fun step => ⟨position, step.name⟩

variable (program : Program)

theorem step_at_index (numbered : program.Numbered) (step : Step) (member : step ∈ program.steps) :
    program.steps[step.index]? = some step := by
  obtain ⟨position, there⟩ := List.mem_iff_getElem?.mp member
  rw [numbered position step there]
  exact there

theorem steps_at_indices (numbered : program.Numbered) (steps : List Step)
    (inside : ∀ step ∈ steps, step ∈ program.steps) :
    program.stepsAt (steps.map Step.index) = steps := by
  induction steps with
  | nil => rfl
  | cons step rest ih =>
      have found := step_at_index program numbered step (inside step List.mem_cons_self)
      have others := ih fun other member => inside other (List.mem_cons_of_mem _ member)
      simp only [stepsAt, List.map_cons] at others ⊢
      rw [List.filterMap_cons_some found, others]

theorem completed_at_indices (numbered : program.Numbered) (steps : List Step)
    (inside : ∀ step ∈ steps, step ∈ program.steps) :
    program.completedAt (steps.map Step.index) = steps.map fun step => ⟨step.index, step.name⟩ := by
  induction steps with
  | nil => rfl
  | cons step rest ih =>
      have found := step_at_index program numbered step (inside step List.mem_cons_self)
      have others := ih fun other member => inside other (List.mem_cons_of_mem _ member)
      simp only [completedAt, List.map_cons] at others ⊢
      rw [List.filterMap_cons_some (b := ⟨step.index, step.name⟩) (by rw [found]; rfl), others]

theorem completed_indices (positions : List Nat)
    (within : ∀ position ∈ positions, position < program.steps.length) :
    (program.completedAt positions).map CompletedStep.index = positions := by
  induction positions with
  | nil => rfl
  | cons position rest ih =>
      have inside : position < program.steps.length := within position List.mem_cons_self
      have there : program.steps[position]? = some program.steps[position] :=
        List.getElem?_eq_getElem inside
      have others := ih fun other member => within other (List.mem_cons_of_mem _ member)
      simp only [completedAt] at others ⊢
      rw [List.filterMap_cons_some (b := ⟨position, program.steps[position].name⟩)
        (by rw [there]; rfl), List.map_cons, others]

theorem due_indices (numbered : program.Numbered) (context : Context) :
    program.due context =
      ((program.steps.drop context.start).filter (Step.isDue context)).map Step.index := by
  unfold due
  generalize length : program.steps.length - context.start = remaining
  generalize context.start = start at length
  induction remaining generalizing start with
  | zero =>
      rw [List.drop_eq_nil_of_le (by omega)]
      rfl
  | succ remaining ih =>
      have within : start < program.steps.length := by omega
      have there : program.steps[start]? = some program.steps[start] :=
        List.getElem?_eq_getElem within
      have index := numbered start program.steps[start] there
      rw [List.range'_succ, List.drop_eq_getElem_cons within, List.filter_cons, List.filter_cons,
        ih (start + 1) (by omega), there]
      simp only [Option.any_some]
      split <;> simp [index]

theorem due_ordered (context : Context) : (program.due context).Pairwise (· < ·) :=
  List.Pairwise.filter _ List.pairwise_lt_range'

theorem due_within (context : Context) (position : Nat) (member : position ∈ program.due context) :
    context.start ≤ position ∧ position < program.steps.length := by
  have inRange := List.mem_range'_1.mp (List.mem_filter.mp member).1
  omega

end Program

namespace Driver

variable {State : Type}

inductive Succeeds (driver : Driver State) (deadline : Option Nat) (context : Context) :
    List Step → State → State → Prop where
  | done (state : State) : Succeeds driver deadline context [] state state
  | step (first : Step) (rest : List Step) (state middle after : State) (produced : Option Json)
      (performed : driver.performStep deadline context first state = (.ok produced, middle))
      (others : Succeeds driver deadline context rest middle after) :
      Succeeds driver deadline context (first :: rest) state after

-- Steps that succeed and then one that fails. The driver receives all calls of the former, and of
-- the last step those up to the one that failed.
def Fails (driver : Driver State) (deadline : Option Nat) (context : Context) (before : List Step)
    (failing : Step) (error : StepError) (state : State) (calls : List Call) (after : State) :
    Prop :=
  ∃ middle, driver.Succeeds deadline context before state middle ∧
    driver.performStep deadline context failing middle = (.error error, after) ∧
    calls = before.flatMap (Step.calls context) ++
      driver.stepCalls deadline context failing middle

variable (driver : Driver State) (deadline : Option Nat) (context : Context)

def completedReport (report : Report) (steps : List Step) (output : Entries Json) : Report :=
  ⟨report.completed ++ steps.map fun step => ⟨step.index, step.name⟩, report.failed, output⟩

theorem complete_then (report : Report) (first : Step) (produced : Option Json) (steps : List Step)
    (output : Entries Json) :
    completedReport (report.complete first produced) steps output =
      completedReport report (first :: steps) output := by
  simp [completedReport, Report.complete]

theorem run_steps_logged (steps : List Step) (report : Report) (state : State) (log : List Call) :
    ((driver.logged.runSteps deadline context steps report (state, log)).1,
        (driver.logged.runSteps deadline context steps report (state, log)).2.1) =
      driver.runSteps deadline context steps report state := by
  induction steps generalizing report state log with
  | nil => rfl
  | cons first rest ih =>
      cases due : first.isDue context with
      | false => simpa [runSteps, due] using ih report state log
      | true =>
          have logged := perform_step_logged driver deadline context first state log
          rcases performed : driver.performStep deadline context first state with ⟨outcome, middle⟩
          rw [performed] at logged
          cases outcome with
          | error error => simp [runSteps, due, logged, performed]
          | ok produced =>
              simpa [runSteps, due, logged, performed] using
                ih (report.complete first produced) middle _

theorem run_steps_trace (steps : List Step) (report : Report) (state : State) (log : List Call) :
    (∃ after output,
      driver.Succeeds deadline context (steps.filter (Step.isDue context)) state after ∧
        driver.logged.runSteps deadline context steps report (state, log) =
          (completedReport report (steps.filter (Step.isDue context)) output, after,
            log ++ (steps.filter (Step.isDue context)).flatMap (Step.calls context))) ∨
    (∃ before failing later error calls after output,
      steps.filter (Step.isDue context) = before ++ failing :: later ∧
        driver.Fails deadline context before failing error state calls after ∧
        driver.logged.runSteps deadline context steps report (state, log) =
          ((completedReport report before output).fail failing error, after, log ++ calls)) := by
  -- The report and the log grow from the front, so both are kept general.
  induction steps generalizing report state log with
  | nil =>
      refine Or.inl ⟨state, report.output, .done state, ?_⟩
      simp [runSteps, completedReport]
  | cons first rest ih =>
      cases due : first.isDue context with
      | false => simpa [runSteps, due] using ih report state log
      | true =>
          have logged := perform_step_logged driver deadline context first state log
          rcases performed : driver.performStep deadline context first state with ⟨outcome, middle⟩
          rw [performed] at logged
          rw [List.filter_cons_of_pos due]
          cases outcome with
          | error error =>
              refine Or.inr ⟨[], first, _, error, _, middle, report.output, rfl,
                ⟨state, .done state, performed, rfl⟩, ?_⟩
              simp [runSteps, due, logged, completedReport]
          | ok produced =>
              have handed := step_calls_succeeded driver deadline context first state middle produced
                performed
              rw [handed] at logged
              have stepped : driver.logged.runSteps deadline context (first :: rest) report (state, log) =
                  driver.logged.runSteps deadline context rest (report.complete first produced)
                    (middle, log ++ first.calls context) := by
                rw [runSteps, if_pos due, logged]
              rw [stepped]
              rcases ih (report.complete first produced) middle (log ++ first.calls context) with
                ⟨after, output, succeeded, run⟩ |
                ⟨before, failing, later, error, calls, after, output, split, failed, run⟩
              · refine Or.inl ⟨after, output,
                  .step first _ state middle after produced performed succeeded, ?_⟩
                rw [run, complete_then, List.flatMap_cons, List.append_assoc]
              · obtain ⟨broken, succeeded, failed, rfl⟩ := failed
                refine Or.inr ⟨first :: before, failing, later, error, _, after, output, ?_,
                  ⟨broken, .step first _ state middle broken produced performed succeeded, failed, rfl⟩,
                  ?_⟩
                · rw [split, List.cons_append]
                · rw [run, complete_then, List.flatMap_cons, List.append_assoc, List.append_assoc]

structure Trace (driver : Driver State) (deadline : Option Nat) (program : Program)
    (context : Context) (state : State) (report : Report) (after : State) (attempted : List Nat) :
    Prop where
  run : driver.run deadline program context state = .ok (report, after)
  initial : attempted <+: program.due context
  ending :
    (attempted = program.due context ∧
      driver.Succeeds deadline context (program.stepsAt attempted) state after ∧
      driver.received deadline program context state =
        (program.stepsAt attempted).flatMap (Step.calls context) ∧
      report.success = true ∧ report.failed = none ∧
      report.completed = program.completedAt attempted) ∨
    (∃ before position step error, attempted = before ++ [position] ∧
      program.steps[position]? = some step ∧
      driver.Fails deadline context (program.stepsAt before) step error state
        (driver.received deadline program context state) after ∧
      report.success = false ∧
      report.failed = some ⟨position, step.name, step.selector, step.hint, error⟩ ∧
      report.completed = program.completedAt before)
  ordered : (report.completed.map CompletedStep.index).Pairwise (· < ·)
  within : ∀ step ∈ report.completed,
    context.start ≤ step.index ∧ step.index < program.steps.length
  below : ∀ failed ∈ report.failed, ∀ step ∈ report.completed, step.index < failed.index
  handed : driver.received deadline program context state <+:
    (program.stepsAt attempted).flatMap (Step.calls context)
  between : ∀ position ∈ attempted, context.start ≤ position ∧
    position < program.steps.length ∧ ∀ failed ∈ report.failed, position ≤ failed.index
  resumable : ∀ failed ∈ report.failed, report.resumeIndex = some failed.index ∧
    ∀ again : State, ∃ result,
      driver.run deadline program { context with start := failed.index } again = .ok result

theorem places_of_ending (program : Program) (report : Report) (attempted positions : List Nat)
    (completed : report.completed = program.completedAt positions)
    (initial : attempted <+: program.due context)
    (last : ∀ failed ∈ report.failed, attempted = positions ++ [failed.index])
    (all : report.failed = none → attempted = positions) :
    (report.completed.map CompletedStep.index).Pairwise (· < ·) ∧
      (∀ step ∈ report.completed, context.start ≤ step.index ∧ step.index < program.steps.length) ∧
      (∀ failed ∈ report.failed, ∀ step ∈ report.completed, step.index < failed.index) ∧
      (∀ position ∈ attempted, context.start ≤ position ∧ position < program.steps.length ∧
        ∀ failed ∈ report.failed, position ≤ failed.index) := by
  -- Everything attempted is due, and the due positions are in order and inside the program.
  have ordered : attempted.Pairwise (· < ·) :=
    (program.due_ordered context).sublist initial.sublist
  have within : ∀ position ∈ attempted,
      context.start ≤ position ∧ position < program.steps.length :=
    fun position member => program.due_within context position (initial.subset member)
  have part : positions <+: attempted := by
    cases ended : report.failed with
    | none => exact all ended ▸ List.prefix_refl _
    | some failed => exact last failed ended ▸ List.prefix_append _ _
  have indices : report.completed.map CompletedStep.index = positions := by
    rw [completed]
    exact program.completed_indices positions fun position member =>
      (within position (part.subset member)).2
  have known : ∀ step ∈ report.completed, step.index ∈ positions := by
    intro step member
    exact indices ▸ List.mem_map_of_mem member
  have before : ∀ failed ∈ report.failed, ∀ position ∈ positions, position < failed.index := by
    intro failed ended position member
    rw [last failed ended, List.pairwise_append] at ordered
    exact ordered.2.2 position member failed.index (by simp)
  refine ⟨?_, ?_, ?_, ?_⟩
  · rw [indices]
    exact ordered.sublist part.sublist
  · exact fun step member => within step.index (part.subset (known step member))
  · exact fun failed ended step member => before failed ended step.index (known step member)
  · intro position member
    refine ⟨(within position member).1, (within position member).2, fun failed ended => ?_⟩
    rw [last failed ended, List.mem_append, List.mem_singleton] at member
    cases member with
    | inl earlier => exact Nat.le_of_lt (before failed ended position earlier)
    | inr same => exact Nat.le_of_eq same

theorem run_accepted (program : Program) (state : State)
    (inside : context.start ≤ program.steps.length) :
    driver.run deadline program context state =
      .ok (driver.runSteps deadline context (program.steps.drop context.start) .empty state) := by
  rw [run, if_neg (Nat.not_lt.mpr inside)]

theorem run_of_logged (program : Program) (state after : State) (report : Report)
    (calls : List Call) (inside : context.start ≤ program.steps.length)
    (logged : driver.logged.runSteps deadline context (program.steps.drop context.start) .empty
      (state, []) = (report, after, calls)) :
    driver.run deadline program context state = .ok (report, after) ∧
      driver.received deadline program context state = calls := by
  have same := run_steps_logged driver deadline context (program.steps.drop context.start) .empty
    state []
  rw [logged] at same
  rw [run_accepted driver deadline context program state inside, ← same, received,
    run_accepted driver.logged deadline context program (state, []) inside, logged]
  exact ⟨rfl, rfl⟩

section

variable (program : Program) (numbered : program.Numbered) (state after : State)
  (output : Entries Json) (inside : context.start ≤ program.steps.length)

include numbered inside

theorem completed_run_traced (attempted : List Step)
    (due : (program.steps.drop context.start).filter (Step.isDue context) = attempted)
    (succeeded : driver.Succeeds deadline context attempted state after)
    (logged : driver.logged.runSteps deadline context (program.steps.drop context.start) .empty
      (state, []) =
        (completedReport .empty attempted output, after, attempted.flatMap (Step.calls context))) :
    ∃ report after attempted,
      Trace driver deadline program context state report after attempted := by
  obtain ⟨run, received⟩ := run_of_logged driver deadline context program state after _ _ inside
    logged
  have members : ∀ step ∈ attempted, step ∈ program.steps := fun step member =>
    List.mem_of_mem_drop (List.mem_of_mem_filter (due ▸ member))
  have steps := program.steps_at_indices numbered attempted members
  have completed := program.completed_at_indices numbered attempted members
  have positions : program.due context = attempted.map Step.index := by
    rw [program.due_indices numbered, due]
  rw [← positions] at steps completed
  have handed : driver.received deadline program context state =
      (program.stepsAt (program.due context)).flatMap (Step.calls context) := by
    rw [steps, received]
  obtain ⟨ordered, within, below, between⟩ := places_of_ending context program
    (completedReport .empty attempted output) (program.due context) (program.due context)
    completed.symm (List.prefix_refl _) (fun failed ended => by cases ended) (fun _ => rfl)
  refine ⟨_, after, program.due context, run, List.prefix_refl _,
    Or.inl ⟨rfl, ?_, handed, rfl, rfl, completed.symm⟩, ordered, within, below,
    handed ▸ List.prefix_refl _, between, fun failed ended => by cases ended⟩
  rw [steps]
  exact succeeded

theorem failed_run_traced (before later : List Step) (failing : Step) (error : StepError)
    (calls : List Call)
    (due : (program.steps.drop context.start).filter (Step.isDue context) =
      before ++ failing :: later)
    (failed : driver.Fails deadline context before failing error state calls after)
    (logged : driver.logged.runSteps deadline context (program.steps.drop context.start) .empty
      (state, []) = ((completedReport .empty before output).fail failing error, after, calls)) :
    ∃ report after attempted,
      Trace driver deadline program context state report after attempted := by
  obtain ⟨run, received⟩ := run_of_logged driver deadline context program state after _ _ inside
    logged
  have members : ∀ step ∈ before ++ failing :: later, step ∈ program.steps := fun step member =>
    List.mem_of_mem_drop (List.mem_of_mem_filter (due ▸ member))
  have attemptedMembers : ∀ step ∈ before ++ [failing], step ∈ program.steps := by
    intro step member
    refine members step ?_
    simp only [List.mem_append, List.mem_cons, List.not_mem_nil, or_false] at member ⊢
    exact member.imp id Or.inl
  have beforeMembers : ∀ step ∈ before, step ∈ program.steps :=
    fun step member => members step (List.mem_append_left _ member)
  have steps := program.steps_at_indices numbered before beforeMembers
  have attempted := program.steps_at_indices numbered (before ++ [failing]) attemptedMembers
  rw [List.map_append] at attempted
  have completed := program.completed_at_indices numbered before beforeMembers
  have there := program.step_at_index numbered failing (members failing (by simp))
  have initial : before.map Step.index ++ [failing.index] <+: program.due context := by
    rw [program.due_indices numbered, due, List.map_append, List.map_cons]
    exact ⟨later.map Step.index, by simp⟩
  have inRange := program.due_within context failing.index (initial.subset (by simp))
  obtain ⟨ordered, within, below, between⟩ := places_of_ending context program
    ((completedReport .empty before output).fail failing error)
    (before.map Step.index ++ [failing.index]) (before.map Step.index) completed.symm initial
    (fun failed ended => by cases ended; rfl) (fun ended => by cases ended)
  refine ⟨_, after, _, run, initial, Or.inr ⟨before.map Step.index, failing.index, failing, error, rfl,
    there, ?_, rfl, rfl, completed.symm⟩, ordered, within, below, ?_, between, ?_⟩
  · rw [steps, received]
    exact failed
  · -- The last step may have handed over only some of its calls.
    obtain ⟨middle, _, _, rfl⟩ := failed
    rw [received, ← List.map_singleton, attempted, List.flatMap_append, List.flatMap_singleton]
    exact (List.prefix_append_right_inj _).mpr
      (step_calls_initial driver deadline context failing middle)
  · -- A failed step lies inside the program, so that its index is a start again.
    intro failedStep ended
    cases ended
    exact ⟨rfl, fun again => ⟨_, run_accepted driver deadline
      { context with start := failing.index } program again (Nat.le_of_lt inRange.2)⟩⟩

theorem run_traced : ∃ report after attempted,
    Trace driver deadline program context state report after attempted := by
  rcases run_steps_trace driver deadline context (program.steps.drop context.start) .empty state []
    with ⟨after, output, succeeded, logged⟩ |
      ⟨before, failing, later, error, calls, after, output, due, failed, logged⟩
  · exact completed_run_traced driver deadline context program numbered state after output inside _
      rfl succeeded logged
  · exact failed_run_traced driver deadline context program numbered state after output inside before
      later failing error calls due failed logged

end

theorem run_trace_law (document : Json) (program : Program)
    (compiled : compile document = .ok program) (driver : Driver State) (deadline : Option Nat)
    (context : Context) (state : State) :
    (∀ error, driver.run deadline program context state = .error error ↔
      program.steps.length < context.start ∧ error = ⟨context.start, program.steps.length⟩) ∧
    (program.steps.length < context.start → driver.received deadline program context state = []) ∧
    (context.start ≤ program.steps.length → ∃ report after attempted,
      Trace driver deadline program context state report after attempted) := by
  refine ⟨fun error => ?_, fun beyond => ?_, fun inside => ?_⟩
  · rw [run]
    by_cases beyond : program.steps.length < context.start
    · simp [beyond, eq_comm]
    · simp [beyond]
  · simp [received, run, beyond]
  · exact run_traced driver deadline context program (compile_numbered document program compiled)
      state inside

theorem run_trace_law_sign_in :
    compile signIn = .ok signInProgram ∧
      (∃ report after attempted, Trace (recorder none 0) none signInProgram .empty
        ⟨[], [⟨"click", none, none⟩]⟩ report after attempted) ∧
      (recorder none 0).run none signInProgram { Context.empty with start := 4 } ⟨[], []⟩ =
        .error ⟨4, 3⟩ :=
  ⟨sign_in_compiles,
    (run_trace_law signIn signInProgram sign_in_compiles (recorder none 0) none .empty
      ⟨[], [⟨"click", none, none⟩]⟩).2.2 (by decide),
    ((run_trace_law signIn signInProgram sign_in_compiles (recorder none 0) none
      { Context.empty with start := 4 } ⟨[], []⟩).1 ⟨4, 3⟩).mpr ⟨by decide, rfl⟩⟩

end Driver

end BrowserFlow
