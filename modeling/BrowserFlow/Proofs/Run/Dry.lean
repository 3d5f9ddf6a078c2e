import BrowserFlow.Proofs.Program.Meaning
import BrowserFlow.Proofs.Run.Resume
/-! Dry runs: runs on a recorder that fails no call. Only a value that cannot be made fails such a run, and
it does so before any call of its step; running again changes nothing but the length of the log. -/
set_option autoImplicit false

namespace BrowserFlow

open Json

-- The values of a step can be made: a look-up that is the whole value finds something, and what is
-- uploaded names files.
structure Step.Evaluates (context : Context) (step : Step) : Prop where
  present : ∀ target, step.operation.expression? = some (.lookup target) →
    ∃ value, context.lookup target = some value
  files : ∀ selector files value, step.operation = .fileUpload selector files →
    files.value context = .ok value → Meaning.namesFiles value = true

variable (context : Context)

theorem value_made_iff (expression : Expression) :
    (∃ value, expression.value context = .ok value) ↔
      ∀ target, expression = .lookup target → ∃ value, context.lookup target = some value := by
  cases expression with
  | literal value => exact ⟨fun _ => nofun, fun _ => ⟨value, rfl⟩⟩
  | template segments => exact ⟨fun _ => nofun, fun _ => ⟨_, rfl⟩⟩
  | lookup target =>
      constructor
      · intro made other same
        cases same
        cases found : context.lookup target with
        | some value => exact ⟨value, rfl⟩
        | none =>
            obtain ⟨value, made⟩ := made
            simp [Expression.value, Expression.evaluate, found] at made
      · intro present
        obtain ⟨value, found⟩ := present target rfl
        exact ⟨value, by simp only [Expression.value, Expression.evaluate, found]⟩

theorem files_accepted (files : Json) (named : Meaning.namesFiles files = true) :
    ∃ paths, filePaths files = .ok paths := by
  rw [files_named] at named
  cases found : filePaths files with
  | ok paths => exact ⟨paths, rfl⟩
  | error error => simp [found, Except.toOption] at named

theorem calls_made (step : Step) (evaluates : step.Evaluates context) :
    ∃ calls, step.operation.calls context = .ok calls := by
  have made : ∀ expression, step.operation.expression? = some expression →
      ∃ value, expression.value context = .ok value := by
    intro expression carried
    refine (value_made_iff context expression).mpr fun target same => ?_
    exact evaluates.present target (by rw [carried, same])
  cases operation : step.operation with
  | fill selector value | type value | select selector value =>
      obtain ⟨value, valued⟩ := made _ (by rw [operation]; rfl)
      simp only [Operation.calls, valued]
      exact ⟨_, rfl⟩
  | fileUpload selector files =>
      obtain ⟨value, valued⟩ := made files (by rw [operation]; rfl)
      obtain ⟨paths, accepted⟩ := files_accepted value
        (evaluates.files selector files value operation valued)
      refine ⟨[.setFiles selector value], ?_⟩
      simp only [Operation.calls, valued, bind, Except.bind, accepted]
      rfl
  | _ => exact ⟨_, rfl⟩

theorem made_evaluates (step : Step) (calls : List Call)
    (made : step.operation.calls context = .ok calls) : step.Evaluates context := by
  have valued : ∀ expression, step.operation.expression? = some expression →
      ∃ value, expression.value context = .ok value := by
    intro expression carried
    cases operation : step.operation with
    | fill selector value | type value | select selector value | fileUpload selector value =>
        rw [operation] at carried made
        cases carried
        obtain ⟨value, valued, _⟩ := (bind_ok_iff _ _ _).mp made
        exact ⟨value, valued⟩
    | _ =>
        rw [operation] at carried
        cases carried
  refine ⟨fun target carried => ?_, fun selector files value operation given => ?_⟩
  · exact (value_made_iff context _).mp (valued _ carried) target rfl
  · rw [operation] at made
    obtain ⟨other, otherGiven, called⟩ := (bind_ok_iff _ _ _).mp made
    rw [given] at otherGiven
    cases otherGiven
    rw [files_named]
    cases accepted : filePaths value with
    | ok paths => rfl
    | error error =>
        rw [accepted] at called
        cases called

theorem Step.evaluates_iff (step : Step) :
    step.Evaluates context ↔ ∃ calls, step.operation.calls context = .ok calls :=
  ⟨calls_made context step, fun ⟨calls, made⟩ => made_evaluates context step calls made⟩

namespace Driver

def AllEvaluate (steps : List Step) : Prop :=
  ∀ step ∈ steps, step.isDue context = true → step.Evaluates context

theorem all_evaluate_iff (steps : List Step) :
    AllEvaluate context steps ↔ Evaluable context steps := by
  simp only [AllEvaluate, Evaluable, Step.evaluates_iff]

def dueCalls (steps : List Step) : List Call :=
  (steps.filter (Step.isDue context)).flatMap (Step.calls context)

inductive DryEnding (steps : List Step) (report : Report) (calls : List Call) : Prop where
  | completed (succeeded : report.failed = none) (evaluate : AllEvaluate context steps)
      (issued : calls = dueCalls context steps)
  | stopped (before later : List Step) (failing : Step) (error : StepError)
      (split : steps = before ++ failing :: later) (evaluate : AllEvaluate context before)
      (due : failing.isDue context = true) (broken : ¬failing.Evaluates context)
      (failed : report.failed =
        some ⟨failing.index, failing.name, failing.selector, failing.hint, error⟩)
      (issued : calls = dueCalls context before)

variable {context} in
theorem DryEnding.skip (step : Step) (rest : List Step) (report : Report) (calls : List Call)
    (idle : step.isDue context = false) (ending : DryEnding context rest report calls) :
    DryEnding context (step :: rest) report calls := by
  have same : ∀ steps, dueCalls context (step :: steps) = dueCalls context steps := by
    intro steps
    rw [dueCalls, List.filter_cons_of_neg (by simp [idle]), dueCalls]
  have passed : ∀ steps, AllEvaluate context steps → AllEvaluate context (step :: steps) :=
    fun steps evaluate => List.forall_mem_cons.mpr ⟨fun due => absurd due (by simp [idle]), evaluate⟩
  cases ending with
  | completed succeeded evaluate issued =>
      exact .completed succeeded (passed rest evaluate) (issued.trans (same rest).symm)
  | stopped before later failing error split evaluate due broken failed issued =>
      exact .stopped (step :: before) later failing error (by rw [split]; rfl) (passed before evaluate)
        due broken failed (issued.trans (same before).symm)

variable {context} in
theorem DryEnding.step (step : Step) (rest : List Step) (report : Report) (made calls : List Call)
    (due : step.isDue context = true) (called : step.operation.calls context = .ok made)
    (ending : DryEnding context rest report calls) :
    DryEnding context (step :: rest) report (made ++ calls) := by
  have here : step.calls context = made := by
    rw [Step.calls, called]
    rfl
  have more : ∀ steps, dueCalls context (step :: steps) = made ++ dueCalls context steps := by
    intro steps
    rw [dueCalls, List.filter_cons_of_pos due, List.flatMap_cons, here, dueCalls]
  have evaluates := made_evaluates context step made called
  have also : ∀ steps, AllEvaluate context steps → AllEvaluate context (step :: steps) :=
    fun steps evaluate => List.forall_mem_cons.mpr ⟨fun _ => evaluates, evaluate⟩
  cases ending with
  | completed succeeded evaluate issued =>
      exact .completed succeeded (also rest evaluate) (by rw [more, issued])
  | stopped before later failing error split evaluate failingDue broken failed issued =>
      exact .stopped (step :: before) later failing error (by rw [split]; rfl) (also before evaluate)
        failingDue broken failed (by rw [more, issued])

variable (scriptResult : Option Json) (deadline : Option Nat)

theorem run_steps_dry (steps : List Step) (report : Report) (fresh : report.failed = none) :
    ∃ ended calls, DryEnding context steps ended calls ∧ ∀ log,
      (recorder scriptResult 0).runSteps deadline context steps report ⟨log, []⟩ =
        (ended, ⟨log ++ calls, []⟩) := by
  induction steps generalizing report with
  | nil =>
      refine ⟨report, [], .completed fresh (by simp [AllEvaluate]) rfl, fun log => ?_⟩
      rw [runSteps, List.append_nil]
  | cons step rest ih =>
      cases due : step.isDue context with
      | false =>
          obtain ⟨ended, calls, ending, ran⟩ := ih report fresh
          refine ⟨ended, calls, ending.skip step rest ended calls due, fun log => ?_⟩
          rw [runSteps, if_neg (by simp [due]), ran]
      | true =>
          cases made : step.operation.calls context with
          | error error =>
              refine ⟨report.fail step error, [], ?_, fun log => ?_⟩
              · refine .stopped [] rest step error rfl (by simp [AllEvaluate]) due ?_ rfl rfl
                intro evaluates
                obtain ⟨calls, called⟩ := calls_made context step evaluates
                rw [made] at called
                cases called
              · simp only [runSteps, due, if_true, performStep, made, List.append_nil]
          | ok first =>
              obtain ⟨ended, calls, ending, ran⟩ := ih
                (report.complete step (if first.any Call.isScript then scriptResult else none)) fresh
              refine ⟨ended, first ++ calls, ending.step step rest ended first calls due made,
                fun log => ?_⟩
              simp only [runSteps, due, if_true, performStep, made, recorder_performs, perform_calm]
              rw [ran, List.append_assoc]

structure DryRun (program : Program) (report : Report) (calls : List Call) : Prop where
  decided : report.success = true ↔ AllEvaluate context (program.steps.drop context.start)
  completed : report.success = true → calls = dueCalls context (program.steps.drop context.start)
  stopped : report.success = false → ∃ before failing later error,
    program.steps.drop context.start = before ++ failing :: later ∧ AllEvaluate context before ∧
      failing.isDue context = true ∧ ¬failing.Evaluates context ∧
      report.failed = some ⟨failing.index, failing.name, failing.selector, failing.hint, error⟩ ∧
      calls = dueCalls context before ∧
      ∀ document, compile document = .ok program → failing.index = context.start + before.length

theorem dry_run_of_ending (program : Program) (report : Report) (calls : List Call)
    (ending : DryEnding context (program.steps.drop context.start) report calls) :
    DryRun context program report calls := by
  cases ending with
  | completed succeeded evaluate issued =>
      have success := (report.success_iff).mpr succeeded
      refine ⟨⟨fun _ => evaluate, fun _ => success⟩, fun _ => issued, fun unsuccessful => ?_⟩
      rw [success] at unsuccessful
      cases unsuccessful
  | stopped before later failing error split evaluate due broken failed issued =>
      have unsuccessful : report.success = false := by simp [Report.success, failed]
      refine ⟨⟨fun success => ?_, fun all => ?_⟩, fun success => ?_, fun _ => ?_⟩
      · rw [unsuccessful] at success
        cases success
      · exact absurd (all failing (by simp [split]) due) broken
      · rw [unsuccessful] at success
        cases success
      · refine ⟨before, failing, later, error, split, evaluate, due, broken, failed, issued, ?_⟩
        intro document compiled
        have numbered := compile_numbered document program compiled
        refine numbered (context.start + before.length) failing ?_
        rw [← List.getElem?_drop, split]
        simp

theorem run_dry (program : Program) (inside : context.start ≤ program.steps.length) :
    ∃ report calls, DryRun context program report calls ∧ ∀ log,
      (recorder scriptResult 0).run deadline program context ⟨log, []⟩ =
        .ok (report, ⟨log ++ calls, []⟩) := by
  obtain ⟨report, calls, ending, ran⟩ := run_steps_dry context scriptResult deadline
    (program.steps.drop context.start) .empty rfl
  refine ⟨report, calls, dry_run_of_ending context program report calls ending, fun log => ?_⟩
  rw [run_accepted _ deadline context program _ inside, ran]

theorem retries_dry (program : Program) (report : Report) (calls : List Call)
    (ran : ∀ log, (recorder scriptResult 0).run deadline program context ⟨log, []⟩ =
      .ok (report, ⟨log ++ calls, []⟩)) (retries : Nat) (log : List Call) :
    (recorder scriptResult 0).runWithRetries deadline program context retries ⟨log, []⟩ =
      .ok (report, ⟨log ++
        if report.success then calls else (List.replicate (retries + 1) calls).flatten, []⟩) := by
  induction retries generalizing log with
  | zero => cases succeeded : report.success <;> simp [runWithRetries, ran]
  | succ retries ih =>
      rw [runWithRetries, ran]
      cases succeeded : report.success with
      | true => simp [succeeded]
      | false => simp [succeeded, ih, List.replicate_succ (n := retries + 1)]

theorem dry_run_decides (program : Program) (inside : context.start ≤ program.steps.length) :
    ∃ report calls, DryRun context program report calls ∧
      (∀ log, (recorder scriptResult 0).run deadline program context ⟨log, []⟩ =
        .ok (report, ⟨log ++ calls, []⟩)) ∧
      ∀ retries log,
        (recorder scriptResult 0).runWithRetries deadline program context retries ⟨log, []⟩ =
          .ok (report, ⟨log ++
            if report.success then calls else (List.replicate (retries + 1) calls).flatten, []⟩) := by
  obtain ⟨report, calls, dry, ran⟩ := run_dry context scriptResult deadline program inside
  exact ⟨report, calls, dry, ran,
    retries_dry context scriptResult deadline program report calls ran⟩

-- Nobody is named: the sign-in stops at the field, whose value it does not have, and does so twice.
theorem dry_run_decides_sign_in :
    Context.empty.start ≤ signInProgram.steps.length ∧
      ∃ report calls, DryRun .empty signInProgram report calls ∧ report.success = false ∧
        calls = [.navigate "https://example.test/", .waitForLoad] ∧
        (recorder none 0).runWithRetries (some 0) signInProgram .empty 1 ⟨[], []⟩ =
          .ok (report, ⟨calls ++ calls, []⟩) := by
  obtain ⟨report, calls, dry, ran, again⟩ := dry_run_decides .empty none (some 0) signInProgram
    (by decide)
  have once := ran []
  have twice := again 1 []
  cases once
  exact ⟨by decide, _, _, dry, rfl, rfl, twice⟩

end Driver

end BrowserFlow
