import BrowserFlow.Proofs.Run.Meaning
import BrowserFlow.Proofs.Run.Reads
import BrowserFlow.Proofs.Run.Trace
/-! Taking a run up again. A run is the run of the first steps and then, if that succeeded, a run of the
others on the driver as it was left; what a failed run completed and what a later run from its failed step
completes is what one run completes. -/
set_option autoImplicit false

namespace BrowserFlow

open Json

namespace Report

def followedBy (first second : Report) : Report :=
  ⟨first.completed ++ second.completed, second.failed, first.output.extend second.output⟩

def OutputDistinct (report : Report) : Prop :=
  (Entries.keys report.output).Nodup

theorem complete_distinct (report : Report) (step : Step) (produced : Option Json)
    (distinct : report.OutputDistinct) : (report.complete step produced).OutputDistinct := by
  unfold OutputDistinct complete
  split
  · exact Entries.insert_distinct _ _ report.output distinct
  · exact distinct

theorem complete_followed (prior report : Report) (step : Step) (produced : Option Json)
    (distinct : report.OutputDistinct) :
    (prior.followedBy report).complete step produced =
      prior.followedBy (report.complete step produced) := by
  unfold followedBy complete
  simp only [List.append_assoc]
  cases step.outputKey with
  | none => rfl
  | some key =>
      cases produced with
      | none => rfl
      | some value =>
          simp only [Entries.extend_insert key value prior.output report.output distinct]

theorem followed_by_empty (report : Report) (succeeded : report.failed = none) :
    report.followedBy .empty = report := by
  simp [followedBy, empty, Entries.extend, ← succeeded]

-- A report that is made up of those of two runs: of the values under one key the later one stands, at
-- the place of the earlier.
structure Composed (first second whole : Report) : Prop where
  completed : whole.completed = first.completed ++ second.completed
  failed : whole.failed = second.failed
  output : whole.output = first.output.extend second.output
  found : ∀ key, Entries.find? key whole.output =
    (Entries.find? key second.output).or (Entries.find? key first.output)
  keys : Entries.keys whole.output = Entries.keys first.output ++
    (Entries.keys second.output).filter fun key => key ∉ Entries.keys first.output

theorem followed_composed (first second : Report) (distinct : second.OutputDistinct) :
    Composed first second (first.followedBy second) where
  completed := rfl
  failed := rfl
  output := rfl
  found key := Entries.extend_find key first.output second.output distinct
  keys := Entries.extend_keys first.output second.output distinct

theorem success_iff (report : Report) : report.success = true ↔ report.failed = none := by
  simp [success]

end Report

namespace Driver

variable {State : Type} (driver : Driver State) (deadline : Option Nat) (context : Context)

theorem run_steps_followed (steps : List Step) (prior report : Report) (state : State)
    (distinct : report.OutputDistinct) :
    driver.runSteps deadline context steps (prior.followedBy report) state =
      (prior.followedBy (driver.runSteps deadline context steps report state).1,
        (driver.runSteps deadline context steps report state).2) := by
  induction steps generalizing report state with
  | nil => rfl
  | cons step rest ih =>
      rw [runSteps, runSteps]
      cases step.isDue context with
      | false => exact ih report state distinct
      | true =>
          rcases driver.performStep deadline context step state with ⟨outcome, middle⟩
          cases outcome with
          | error error => rfl
          | ok produced =>
              have kept := report.complete_distinct step produced distinct
              simp only [if_true, prior.complete_followed report step produced distinct]
              exact ih (report.complete step produced) middle kept

theorem run_steps_distinct (steps : List Step) (report : Report) (state : State)
    (distinct : report.OutputDistinct) :
    (driver.runSteps deadline context steps report state).1.OutputDistinct := by
  induction steps generalizing report state with
  | nil => exact distinct
  | cons step rest ih =>
      rw [runSteps]
      cases step.isDue context with
      | false => exact ih report state distinct
      | true =>
          rcases driver.performStep deadline context step state with ⟨outcome, middle⟩
          cases outcome with
          | error error => exact distinct
          | ok produced => exact ih _ middle (report.complete_distinct step produced distinct)

theorem run_steps_append (before later : List Step) (report : Report) (state : State)
    (fresh : report.success = true) :
    driver.runSteps deadline context (before ++ later) report state =
      if (driver.runSteps deadline context before report state).1.success then
        driver.runSteps deadline context later
          (driver.runSteps deadline context before report state).1
          (driver.runSteps deadline context before report state).2
      else driver.runSteps deadline context before report state := by
  induction before generalizing report state with
  | nil => simp [runSteps, fresh]
  | cons step rest ih =>
      rw [List.cons_append, runSteps, runSteps]
      cases step.isDue context with
      | false => exact ih report state fresh
      | true =>
          rcases driver.performStep deadline context step state with ⟨outcome, middle⟩
          cases outcome with
          | error error => rfl
          | ok produced => exact ih (report.complete step produced) middle fresh

theorem run_steps_log (steps : List Step) (report : Report) (state : State) (log : List Call) :
    driver.logged.runSteps deadline context steps report (state, log) =
      ((driver.runSteps deadline context steps report state).1,
        (driver.runSteps deadline context steps report state).2,
        log ++ (driver.logged.runSteps deadline context steps report (state, [])).2.2) := by
  induction steps generalizing report state log with
  | nil => simp [runSteps]
  | cons step rest ih =>
      have here := perform_step_logged driver deadline context step state log
      have afresh := perform_step_logged driver deadline context step state []
      rw [runSteps, runSteps, runSteps, here, afresh]
      cases step.isDue context with
      | false => exact ih report state log
      | true =>
          rcases driver.performStep deadline context step state with ⟨outcome, middle⟩
          cases outcome with
          | error error => simp
          | ok produced =>
              have full := ih (report.complete step produced) middle
              simp only [if_true, List.nil_append, full (log ++ _),
                full (driver.stepCalls deadline context step state), List.append_assoc]

def completions (steps : List Step) : List CompletedStep :=
  (steps.filter (Step.isDue context)).map fun step => ⟨step.index, step.name⟩

def Evaluable (steps : List Step) : Prop :=
  ∀ step ∈ steps, step.isDue context = true → ∃ calls, step.operation.calls context = .ok calls

theorem completions_cons (step : Step) (rest : List Step) (due : step.isDue context = true) :
    completions context (step :: rest) = ⟨step.index, step.name⟩ :: completions context rest := by
  rw [completions, List.filter_cons_of_pos due, List.map_cons, completions]

theorem completions_skip (step : Step) (rest : List Step) (idle : step.isDue context = false) :
    completions context (step :: rest) = completions context rest := by
  rw [completions, List.filter_cons_of_neg (by simp [idle]), completions]

theorem performed_evaluable (step : Step) (state after : State) (produced : Option Json)
    (succeeded : driver.performStep deadline context step state = (.ok produced, after)) :
    ∃ calls, step.operation.calls context = .ok calls := by
  unfold performStep at succeeded
  cases known : step.operation.calls context with
  | ok calls => exact ⟨calls, rfl⟩
  | error error => simp [known] at succeeded

theorem run_steps_ending (steps : List Step) (report : Report) (state : State)
    (fresh : report.failed = none) :
    ((driver.runSteps deadline context steps report state).1.failed = none ∧
      (driver.runSteps deadline context steps report state).1.completed =
        report.completed ++ completions context steps ∧
      Evaluable context steps) ∨
    (∃ before failing later error, steps = before ++ failing :: later ∧
      (driver.runSteps deadline context steps report state).1.failed =
        some ⟨failing.index, failing.name, failing.selector, failing.hint, error⟩ ∧
      (driver.runSteps deadline context steps report state).1.completed =
        report.completed ++ completions context before ∧
      Evaluable context before) := by
  induction steps generalizing report state with
  | nil => exact Or.inl ⟨fresh, by simp [runSteps, completions], by simp [Evaluable]⟩
  | cons step rest ih =>
      rw [runSteps]
      cases due : step.isDue context with
      | false =>
          -- A step that is passed over leaves no mark, whether or not its values can be made.
          rcases ih report state fresh with ⟨succeeded, completed, evaluable⟩ |
            ⟨before, failing, later, error, split, failed, completed, evaluable⟩
          · refine Or.inl ⟨succeeded, ?_, ?_⟩
            · rw [completions_skip context step rest due]
              exact completed
            · exact List.forall_mem_cons.mpr ⟨fun now => absurd now (by simp [due]), evaluable⟩
          · refine Or.inr ⟨step :: before, failing, later, error, ?_, failed, ?_, ?_⟩
            · rw [split, List.cons_append]
            · rw [completions_skip context step before due]
              exact completed
            · exact List.forall_mem_cons.mpr ⟨fun now => absurd now (by simp [due]), evaluable⟩
      | true =>
          rcases performed : driver.performStep deadline context step state with ⟨outcome, middle⟩
          cases outcome with
          | error error =>
              refine Or.inr ⟨[], step, rest, error, rfl, rfl, ?_, by simp [Evaluable]⟩
              simp [Report.fail, completions]
          | ok produced =>
              have made := performed_evaluable driver deadline context step state middle produced
                performed
              rcases ih (report.complete step produced) middle fresh with
                ⟨succeeded, completed, evaluable⟩ |
                ⟨before, failing, later, error, split, failed, completed, evaluable⟩
              · refine Or.inl ⟨succeeded, ?_, List.forall_mem_cons.mpr ⟨fun _ => made, evaluable⟩⟩
                rw [completions_cons context step rest due]
                simpa [Report.complete] using completed
              · refine Or.inr ⟨step :: before, failing, later, error, ?_, failed, ?_,
                  List.forall_mem_cons.mpr ⟨fun _ => made, evaluable⟩⟩
                · rw [split, List.cons_append]
                · rw [completions_cons context step before due]
                  simpa [Report.complete] using completed

theorem perform_calm (calls log : List Call) :
    Meaning.perform calls ⟨log, []⟩ = (none, ⟨log ++ calls, []⟩) := by
  induction calls generalizing log with
  | nil => simp [Meaning.perform]
  | cons call rest ih =>
      simp only [Meaning.perform, Recording.record, chargeFirst, ih, List.append_assoc,
        List.cons_append, List.nil_append]

theorem run_steps_calm (scriptResult : Option Json) (steps : List Step)
    (evaluable : Evaluable context steps) (report : Report) (fresh : report.failed = none)
    (log : List Call) :
    ((recorder scriptResult 0).runSteps deadline context steps report ⟨log, []⟩).1.failed = none := by
  induction steps generalizing report log with
  | nil => exact fresh
  | cons step rest ih =>
      obtain ⟨here, later⟩ := List.forall_mem_cons.mp evaluable
      rw [runSteps]
      cases due : step.isDue context with
      | false => exact ih later report fresh log
      | true =>
          obtain ⟨calls, made⟩ := here due
          simp only [if_true, performStep, made, recorder_performs, perform_calm]
          exact ih later (report.complete step _) fresh (log ++ calls)

end Driver

namespace Program

def upTo (program : Program) (cut : Nat) : Program :=
  { program with steps := program.steps.take cut }

theorem up_to_length (program : Program) (cut : Nat) (inside : cut ≤ program.steps.length) :
    (program.upTo cut).steps.length = cut := by
  rw [upTo, List.length_take, Nat.min_eq_left inside]

theorem steps_cut (program : Program) (start cut : Nat) (ahead : start ≤ cut)
    (inside : cut ≤ program.steps.length) :
    program.steps.drop start = (program.upTo cut).steps.drop start ++ program.steps.drop cut := by
  have within : start ≤ (program.steps.take cut).length := by
    rw [List.length_take]
    omega
  rw [upTo, ← List.drop_append_of_le_length within, List.take_append_drop]

theorem Numbered.rest {program : Program} (numbered : program.Numbered) (start : Nat)
    (before later : List Step) (step : Step)
    (split : program.steps.drop start = before ++ step :: later) :
    step.index ≤ program.steps.length ∧ program.steps.drop step.index = step :: later := by
  have position : program.steps[start + before.length]? = some step := by
    rw [← List.getElem?_drop, split]
    simp
  have index : step.index = start + before.length := numbered _ step position
  have shorter := (List.getElem?_eq_some_iff.mp position).1
  refine ⟨by omega, ?_⟩
  rw [index, ← List.drop_drop, split]
  simp

end Program

namespace Driver

variable {State : Type} (driver : Driver State) (deadline : Option Nat) (context : Context)

theorem run_cut (program : Program) (cut : Nat) (ahead : context.start ≤ cut)
    (inside : cut ≤ program.steps.length) (state : State) :
    ∃ first middle, driver.run deadline (program.upTo cut) context state = .ok (first, middle) ∧
      (first.success = false →
        driver.run deadline program context state = .ok (first, middle)) ∧
      (first.success = true → ∃ second after,
        driver.run deadline program { context with start := cut } middle = .ok (second, after) ∧
        second.OutputDistinct ∧
        driver.run deadline program context state = .ok (first.followedBy second, after)) := by
  have whole := driver.run_accepted deadline context program state (Nat.le_trans ahead inside)
  have part := driver.run_accepted deadline context (program.upTo cut) state
    (by rw [program.up_to_length cut inside]; exact ahead)
  rw [program.steps_cut context.start cut ahead inside,
    run_steps_append driver deadline context _ _ .empty state rfl] at whole
  rcases ran : driver.runSteps deadline context ((program.upTo cut).steps.drop context.start) .empty
    state with ⟨first, middle⟩
  rw [ran] at whole part
  refine ⟨first, middle, part, fun failed => ?_, fun succeeded => ?_⟩
  · rw [whole]
    simp [failed]
  · have again := driver.run_accepted deadline { context with start := cut } program middle inside
    have same := run_steps_agree { context with start := cut } context driver deadline
      (program.steps.drop cut) (context.restarted_agree cut _)
    rw [same] at again
    have distinct : Report.empty.OutputDistinct := List.nodup_nil
    refine ⟨_, _, again, run_steps_distinct driver deadline context _ .empty middle distinct, ?_⟩
    have followed := run_steps_followed driver deadline context (program.steps.drop cut) first .empty
      middle distinct
    rw [first.followed_by_empty (first.success_iff.mp succeeded)] at followed
    rw [whole, if_pos succeeded, followed]

theorem run_logged (program : Program) (state : State) (log : List Call) :
    driver.logged.run deadline program context (state, log) =
      (driver.run deadline program context state).map fun ended =>
        (ended.1, ended.2, log ++ driver.received deadline program context state) := by
  unfold received run
  split
  · rfl
  · rw [run_steps_log driver deadline context _ .empty state log]
    simp [Except.map]

structure Uninterrupted (program : Program) (completed : List CompletedStep) : Prop where
  every : ∀ {Other : Type} (other : Driver Other) (bound : Option Nat) (report : Report)
    (fresh final : Other), other.run bound program context fresh = .ok (report, final) →
      report.success = true → report.completed = completed
  calm : ∀ scriptResult bound log, ∃ report final,
    (recorder scriptResult 0).run bound program context ⟨log, []⟩ = .ok (report, final) ∧
      report.success = true ∧ report.completed = completed

theorem uninterrupted_completes (program : Program) (inside : context.start ≤ program.steps.length)
    (evaluable : Evaluable context (program.steps.drop context.start)) :
    Uninterrupted context program (completions context (program.steps.drop context.start)) := by
  have every : ∀ {Other : Type} (other : Driver Other) (bound : Option Nat) (report : Report)
      (fresh final : Other), other.run bound program context fresh = .ok (report, final) →
        report.success = true →
          report.completed = completions context (program.steps.drop context.start) := by
    intro Other other bound report fresh final ran succeeded
    rw [run_accepted other bound context program fresh inside, Except.ok.injEq] at ran
    rcases run_steps_ending other bound context (program.steps.drop context.start) .empty fresh rfl
      with ⟨_, completed, _⟩ | ⟨_, _, _, _, _, failed, _⟩
    · rw [ran] at completed
      simpa [Report.empty] using completed
    · rw [ran, report.success_iff.mp succeeded] at failed
      cases failed
  refine ⟨every, fun scriptResult bound log => ?_⟩
  have accepted := run_accepted (recorder scriptResult 0) bound context program ⟨log, []⟩ inside
  have succeeded := (Report.success_iff _).mpr (run_steps_calm bound context scriptResult
    (program.steps.drop context.start) evaluable .empty rfl log)
  exact ⟨_, _, accepted, succeeded, every _ bound _ _ _ accepted succeeded⟩

theorem resumed_completes {Again : Type} (program : Program) (numbered : program.Numbered)
    (report : Report) (failed : FailedStep) (state after : State)
    (ran : driver.run deadline program context state = .ok (report, after))
    (ended : report.failed = some failed) (again : Driver Again) (limit : Option Nat)
    (second : Report) (start last : Again)
    (resumed : again.run limit program { context with start := failed.index } start =
      .ok (second, last))
    (succeeded : second.success = true) :
    Uninterrupted context program (report.completed ++ second.completed) := by
  have inside : context.start ≤ program.steps.length := by
    by_contra beyond
    rw [run, if_pos (Nat.lt_of_not_le beyond)] at ran
    cases ran
  rw [run_accepted driver deadline context program state inside] at ran
  have steps := run_steps_ending driver deadline context (program.steps.drop context.start) .empty
    state rfl
  simp only [Except.ok.injEq] at ran
  rw [ran] at steps
  rcases steps with ⟨none, _⟩ | ⟨before, failing, later, error, split, known, completed, evaluable⟩
  · rw [ended] at none
    cases none
  rw [ended, Option.some.injEq] at known
  have same : failed.index = failing.index := by rw [known]
  obtain ⟨within, rest⟩ := numbered.rest context.start before later failing split
  rw [← same] at within rest
  rw [run_accepted again limit { context with start := failed.index } program start within,
    run_steps_agree { context with start := failed.index } context again limit _
      (context.restarted_agree failed.index _), Except.ok.injEq] at resumed
  have resumedSteps := run_steps_ending again limit context (program.steps.drop failed.index) .empty
    start rfl
  rw [resumed, rest, second.success_iff.mp succeeded] at resumedSteps
  simp only [reduceCtorEq, false_and, and_false, exists_false, or_false, true_and] at resumedSteps
  obtain ⟨resumedCompleted, resumedEvaluable⟩ := resumedSteps
  have all : completions context (program.steps.drop context.start) =
      report.completed ++ second.completed := by
    rw [split, completed, resumedCompleted]
    simp [completions, Report.empty]
  have allEvaluable : Evaluable context (program.steps.drop context.start) := by
    rw [split]
    intro step member
    cases List.mem_append.mp member with
    | inl earlier => exact evaluable step earlier
    | inr later => exact resumedEvaluable step later
  rw [← all]
  exact uninterrupted_completes context program inside allEvaluable

-- A failed run and one from its failed step complete together what one run completes, because the steps
-- of a compiled program have their positions for indices.
theorem runs_compose (program : Program) (state : State) :
    (∀ cut, context.start ≤ cut → cut ≤ program.steps.length →
      ∃ first middle, driver.run deadline (program.upTo cut) context state = .ok (first, middle) ∧
        (first.success = false →
          driver.run deadline program context state = .ok (first, middle) ∧
          driver.received deadline program context state =
            driver.received deadline (program.upTo cut) context state) ∧
        (first.success = true → ∃ second whole after,
          driver.run deadline program { context with start := cut } middle = .ok (second, after) ∧
          driver.run deadline program context state = .ok (whole, after) ∧
          Report.Composed first second whole ∧
          driver.received deadline program context state =
            driver.received deadline (program.upTo cut) context state ++
              driver.received deadline program { context with start := cut } middle)) ∧
    (∀ document, compile document = .ok program → ∀ report failed after,
      driver.run deadline program context state = .ok (report, after) → report.failed = some failed →
      ∀ {Again : Type} (again : Driver Again) (limit : Option Nat) (second : Report)
          (start last : Again),
        again.run limit program { context with start := failed.index } start = .ok (second, last) →
        second.success = true →
        Uninterrupted context program (report.completed ++ second.completed)) := by
  refine ⟨fun cut ahead inside => ?_, ?_⟩
  · -- The log kept beside the driver is cut with the run.
    obtain ⟨first, ⟨middle, calls⟩, part, failing, succeeding⟩ :=
      run_cut driver.logged deadline context program cut ahead inside (state, [])
    rw [run_logged, map_ok_iff] at part
    obtain ⟨⟨first, middle⟩, ran, same⟩ := part
    cases same
    refine ⟨first, middle, ran, fun failed => ?_, fun succeeded => ?_⟩
    · have whole := failing failed
      rw [run_logged, map_ok_iff] at whole
      obtain ⟨⟨report, after⟩, ranWhole, same⟩ := whole
      simp only [List.nil_append, Prod.mk.injEq] at same
      obtain ⟨rfl, rfl, received⟩ := same
      exact ⟨ranWhole, received⟩
    · obtain ⟨second, ⟨after, more⟩, resumed, distinct, whole⟩ := succeeding succeeded
      rw [run_logged, map_ok_iff] at resumed whole
      obtain ⟨⟨second, after⟩, ranAgain, same⟩ := resumed
      cases same
      obtain ⟨⟨report, last⟩, ranWhole, same⟩ := whole
      simp only [List.nil_append, Prod.mk.injEq] at same
      obtain ⟨rfl, rfl, received⟩ := same
      exact ⟨second, _, _, ranAgain, ranWhole, first.followed_composed second distinct, received⟩
  · intro document compiled report failed after ran ended Again again limit second start last resumed
      succeeded
    exact resumed_completes driver deadline context program (compile_numbered document program compiled)
      report failed state after ran ended again limit second start last resumed succeeded

theorem runs_compose_sign_in :
    compile signIn = .ok signInProgram ∧
      (∃ first middle, (recorder none 0).run none (signInProgram.upTo 1) .empty
          ⟨[], [⟨"click", none, some 1⟩]⟩ = .ok (first, middle) ∧ first.success = true ∧
        middle = ⟨[.navigate "https://example.test/", .waitForLoad], [⟨"click", none, some 1⟩]⟩) ∧
      Uninterrupted ⟨[], [], [("user", string "ann")], 0⟩ signInProgram
        ([⟨0, "Open"⟩, ⟨1, "Enter"⟩] ++ [⟨2, "Send"⟩]) := by
  obtain ⟨first, middle, ran, -, -⟩ := (runs_compose (recorder none 0) none .empty signInProgram
    ⟨[], [⟨"click", none, some 1⟩]⟩).1 1 (by decide) (by decide)
  refine ⟨sign_in_compiles, ⟨first, middle, ran, ?_⟩, ?_⟩
  · cases ran
    exact ⟨rfl, rfl⟩
  · exact (runs_compose (recorder none 0) none ⟨[], [], [("user", string "ann")], 0⟩ signInProgram
      ⟨[], [⟨"click", none, some 1⟩]⟩).2 signIn sign_in_compiles _ _ _ rfl rfl (recorder none 0) none
      ⟨[⟨2, "Send"⟩], none, []⟩ ⟨[], []⟩ _ rfl rfl

end Driver

end BrowserFlow
