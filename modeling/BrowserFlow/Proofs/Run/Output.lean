import BrowserFlow.Proofs.Run.Resume
/-! The output of a run. Among the steps that a run completes, those with a script and a key leave the
values that the driver gave their scripts; under each key the last one stays, at the place of the first. -/
set_option autoImplicit false

namespace BrowserFlow

open Json

structure Completion where
  step : Step
  value : Option Json

namespace Completion

def named (one : Completion) : CompletedStep :=
  ⟨one.step.index, one.step.name⟩

structure Leaves (one : Completion) (key : String) (value : Json) : Prop where
  script : one.step.operation.action = .rawCode
  keyed : one.step.outputKey = some key
  given : one.value = some value

def left? (one : Completion) : Option (String × Json) :=
  match one.step.operation, one.step.outputKey, one.value with
  | .rawCode _, some key, some value => some (key, value)
  | _, _, _ => none

def valueAt? (key : String) (one : Completion) : Option Json :=
  one.left?.bind fun entry => if entry.1 = key then some entry.2 else none

theorem left_iff (one : Completion) (key : String) (value : Json) :
    one.left? = some (key, value) ↔ one.Leaves key value := by
  constructor
  · intro left
    unfold left? at left
    split at left
    · rename_i code _ _ operation keyed given
      cases left
      exact ⟨by rw [operation]; rfl, keyed, given⟩
    · cases left
  · rintro ⟨script, keyed, given⟩
    cases operation : one.step.operation <;> rw [operation] at script <;> cases script
    rw [left?, operation, keyed, given]

theorem value_at_iff (one : Completion) (key : String) (value : Json) :
    one.valueAt? key = some value ↔ one.Leaves key value := by
  rw [← left_iff, valueAt?, Option.bind_eq_some_iff]
  constructor
  · rintro ⟨⟨name, found⟩, left, here⟩
    split at here
    · rename_i same
      cases same
      cases here
      exact left
    · cases here
  · exact fun left => ⟨(key, value), left, if_pos rfl⟩

theorem value_at_none_iff (one : Completion) (key : String) :
    one.valueAt? key = none ↔ ∀ value, ¬ one.Leaves key value := by
  simp only [Option.eq_none_iff_forall_ne_some, ne_eq, value_at_iff]

theorem keys_left (done : List Completion) (key : String) :
    key ∈ Entries.keys (done.filterMap left?) ↔ ∃ one ∈ done, ∃ value, one.Leaves key value := by
  simp only [Entries.keys, List.mem_map, List.mem_filterMap, ← left_iff]
  constructor
  · rintro ⟨⟨name, value⟩, ⟨one, member, left⟩, rfl⟩
    exact ⟨one, member, value, left⟩
  · rintro ⟨one, member, value, left⟩
    exact ⟨(key, value), ⟨one, member, left⟩, rfl⟩

theorem find_left (done : List Completion) (key : String) :
    Entries.find? key (done.filterMap left?) = done.findSome? (valueAt? key) := by
  induction done with
  | nil => rfl
  | cons one rest ih =>
      rw [List.filterMap_cons, List.findSome?_cons, valueAt?]
      cases one.left? with
      | none => exact ih
      | some entry =>
          rcases entry with ⟨name, value⟩
          rw [Entries.find?, ih]
          by_cases same : name = key
          · simp [same]
          · simp [same]

-- The first value from behind is the last one that was left.
theorem last_left (done : List Completion) (key : String) (value : Json) :
    Entries.find? key (done.filterMap left?).reverse = some value ↔
      ∃ earlier one later, done = earlier ++ one :: later ∧ one.Leaves key value ∧
        ∀ other ∈ later, ∀ value, ¬ other.Leaves key value := by
  rw [← List.filterMap_reverse, find_left, List.findSome?_eq_some_iff]
  simp only [value_at_iff, value_at_none_iff]
  constructor
  · rintro ⟨later, one, earlier, split, left, none⟩
    refine ⟨earlier.reverse, one, later.reverse, ?_, left, fun other member => ?_⟩
    · rw [← done.reverse_reverse, split]
      simp
    · exact none other (List.mem_reverse.mp member)
  · rintro ⟨earlier, one, later, rfl, left, none⟩
    refine ⟨later.reverse, one, earlier.reverse, by simp, left, fun other member => ?_⟩
    exact none other (List.mem_reverse.mp member)

end Completion

namespace Report

def after (report : Report) (done : List Completion) (failed : Option FailedStep) : Report :=
  ⟨report.completed ++ done.map Completion.named, failed,
    report.output.extend (done.filterMap Completion.left?)⟩

theorem after_none (report : Report) : report.after [] report.failed = report := by
  simp [after, Entries.extend]

theorem after_cons (report : Report) (one : Completion) (rest : List Completion)
    (failed later : Option FailedStep) :
    (report.after [one] failed).after rest later = report.after (one :: rest) later := by
  simp only [after, Entries.extend, List.append_assoc, ← List.map_append, ← List.foldl_append,
    ← List.filterMap_append, List.singleton_append]

end Report

namespace Driver

variable {State : Type} (driver : Driver State) (deadline : Option Nat) (context : Context)

def Answers (step : Step) (state : State) (value : Option Json) : Prop :=
  match step.operation with
  | .rawCode code => ∃ after, driver.perform (.runScript code) state = (.ok value, after)
  | _ => value = none

theorem calls_unscripted (operation : Operation) (other : operation.action ≠ .rawCode)
    (calls : List Call) (made : operation.calls context = .ok calls) :
    ∀ call ∈ calls, call.isScript = false := by
  cases operation <;> simp only [Operation.calls, bind_ok_iff] at made
  case navigate | click | press | wait =>
    cases made
    simp [Call.isScript]
  case fill | type | select =>
    obtain ⟨value, _, same⟩ := made
    cases same
    simp [Call.isScript]
  case fileUpload =>
    obtain ⟨files, _, made⟩ := made
    split at made
    · cases made
      simp [Call.isScript]
    · cases made
  case rawCode => exact absurd rfl other

theorem perform_all_unscripted (calls : List Call) (free : ∀ call ∈ calls, call.isScript = false)
    (elapsed : Nat) (state after : State) (produced : Option Json)
    (performed : driver.performAll deadline elapsed calls state = (.ok produced, after)) :
    produced = none := by
  induction calls generalizing elapsed state produced with
  | nil =>
      cases performed
      rfl
  | cons call rest ih =>
      obtain ⟨_, middle, later, _, _, others, rfl⟩ :=
        perform_all_cons_ok driver deadline elapsed call rest state after produced performed
      rw [List.forall_mem_cons] at free
      rw [free.1]
      exact ih free.2 (elapsed + driver.delay) middle later others

theorem perform_step_answers (step : Step) (state after : State) (produced : Option Json)
    (performed : driver.performStep deadline context step state = (.ok produced, after)) :
    driver.Answers step state produced := by
  rw [performStep] at performed
  unfold Answers
  split at performed
  · rename_i calls made
    split
    · rename_i code operation
      rw [operation] at made
      cases made
      obtain ⟨value, middle, later, _, called, _, rfl⟩ :=
        perform_all_cons_ok driver deadline 0 _ _ state after produced performed
      exact ⟨middle, called⟩
    · rename_i other
      refine perform_all_unscripted driver deadline calls ?_ 0 state after produced performed
      refine calls_unscripted context step.operation (fun script => ?_) calls made
      cases operation : step.operation <;> rw [operation] at script <;> cases script
      exact other _ operation
  · cases performed

theorem complete_answered (report : Report) (one : Completion) (state : State)
    (answered : driver.Answers one.step state one.value) :
    report.complete one.step one.value = report.after [one] report.failed := by
  rcases one with ⟨⟨_, _, _, _, _, key, _, operation⟩, value⟩
  cases operation
  case rawCode => cases key <;> cases value <;> rfl
  all_goals
    cases answered
    cases key <;> rfl

inductive Completes : List Completion → State → State → Prop where
  | none (state : State) : Completes [] state state
  | step (first : Completion) (rest : List Completion) (state middle after : State)
      (answered : driver.Answers first.step state first.value)
      (performed : driver.performStep deadline context first.step state = (.ok first.value, middle))
      (others : Completes rest middle after) : Completes (first :: rest) state after

inductive Ends (steps : List Step) (state : State) (done : List Completion) :
    Option FailedStep → State → Prop where
  | through (after : State) (due : steps.filter (Step.isDue context) = done.map Completion.step)
      (completes : driver.Completes deadline context done state after) :
      Ends steps state done none after
  | broken (before later : List Step) (failing : Step) (error : StepError) (middle after : State)
      (split : steps = before ++ failing :: later)
      (due : before.filter (Step.isDue context) = done.map Completion.step)
      (completes : driver.Completes deadline context done state middle)
      (attempted : failing.isDue context = true)
      (failed : driver.performStep deadline context failing middle = (.error error, after)) :
      Ends steps state done
        (some ⟨failing.index, failing.name, failing.selector, failing.hint, error⟩) after

variable {driver deadline context}

theorem Completes.run_steps {done : List Completion} {state after : State}
    (completes : driver.Completes deadline context done state after) (steps : List Step)
    (due : steps.filter (Step.isDue context) = done.map Completion.step) (report : Report) :
    driver.runSteps deadline context steps report state = (report.after done report.failed, after) := by
  induction steps generalizing done state report with
  | nil =>
      cases completes with
      | none => rw [runSteps, report.after_none]
      | step => cases due
  | cons step rest ih =>
      rw [runSteps]
      cases here : step.isDue context with
      | false =>
          rw [List.filter_cons_of_neg (by simp [here])] at due
          exact ih completes due report
      | true =>
          rw [List.filter_cons_of_pos here] at due
          cases completes with
          | none => cases due
          | step first others _ middle _ answered performed remaining =>
              rw [List.map_cons, List.cons.injEq] at due
              obtain ⟨rfl, due⟩ := due
              have completed := complete_answered driver report first state answered
              have next := ih remaining due (report.complete first.step first.value)
              rw [completed, report.after_cons] at next
              simp only [performed, if_true, completed]
              exact next

section

variable {step : Step} {rest : List Step} {state middle after : State} {done : List Completion}
  {failed : Option FailedStep}

theorem Ends.pass (idle : step.isDue context = false)
    (ends : driver.Ends deadline context rest state done failed after) :
    driver.Ends deadline context (step :: rest) state done failed after := by
  have passed (steps : List Step) : (step :: steps).filter (Step.isDue context) =
      steps.filter (Step.isDue context) := List.filter_cons_of_neg (by simp [idle])
  cases ends with
  | through _ due completes => exact .through after ((passed rest).trans due) completes
  | broken before later failing error last _ split due completes attempted failed =>
      exact .broken (step :: before) later failing error last after (by rw [split, List.cons_append])
        ((passed before).trans due) completes attempted failed

theorem Ends.follow {produced : Option Json} (here : step.isDue context = true)
    (performed : driver.performStep deadline context step state = (.ok produced, middle))
    (ends : driver.Ends deadline context rest middle done failed after) :
    driver.Ends deadline context (step :: rest) state (⟨step, produced⟩ :: done) failed after := by
  have answered := perform_step_answers driver deadline context step state middle produced performed
  cases ends with
  | through _ due completes =>
      refine .through after ?_ (.step _ done state middle after answered performed completes)
      rw [List.filter_cons_of_pos here, due, List.map_cons]
  | broken before later failing error last _ split due completes attempted failed =>
      refine .broken (step :: before) later failing error last after (by rw [split, List.cons_append])
        ?_ (.step _ done state middle last answered performed completes) attempted failed
      rw [List.filter_cons_of_pos here, due, List.map_cons]

theorem Ends.run_steps {steps : List Step}
    (ends : driver.Ends deadline context steps state done failed after) (report : Report)
    (fresh : report.failed = none) :
    driver.runSteps deadline context steps report state = (report.after done failed, after) := by
  cases ends with
  | through _ due completes => rw [completes.run_steps steps due, fresh]
  | broken before later failing error last _ split due completes attempted failed =>
      have succeeded : (report.after done report.failed).success = true :=
        (Report.success_iff _).mpr fresh
      rw [split, run_steps_append driver deadline context before _ report state
        (report.success_iff.mpr fresh), completes.run_steps before due, if_pos succeeded, runSteps,
        if_pos attempted, failed]
      rfl

end

variable (driver deadline context) in
theorem ends_somehow (steps : List Step) (state : State) : ∃ done failed after,
    driver.Ends deadline context steps state done failed after := by
  induction steps generalizing state with
  | nil => exact ⟨[], none, state, .through state rfl (.none state)⟩
  | cons step rest ih =>
      cases here : step.isDue context with
      | false =>
          obtain ⟨done, failed, after, ends⟩ := ih state
          exact ⟨done, failed, after, ends.pass here⟩
      | true =>
          rcases performed : driver.performStep deadline context step state with ⟨outcome, middle⟩
          cases outcome with
          | error error =>
              exact ⟨[], _, middle, .broken [] rest step error state middle rfl rfl (.none state) here
                performed⟩
          | ok produced =>
              obtain ⟨done, failed, after, ends⟩ := ih middle
              exact ⟨⟨step, produced⟩ :: done, failed, after, ends.follow here performed⟩

theorem Ends.among {steps : List Step} {state after : State} {done : List Completion}
    {failed : Option FailedStep} (ends : driver.Ends deadline context steps state done failed after) :
    ∀ one ∈ done, one.step ∈ steps ∧ one.step.isDue context = true := by
  intro one member
  have named : one.step ∈ done.map Completion.step := List.mem_map_of_mem member
  cases ends with
  | through _ due completes =>
      rw [← due] at named
      exact List.mem_filter.mp named
  | broken before later failing error last _ split due completes attempted failed =>
      rw [← due] at named
      obtain ⟨earlier, here⟩ := List.mem_filter.mp named
      exact ⟨split ▸ List.mem_append_left _ earlier, here⟩

end Driver

theorem Program.up_to_split (program : Program) (start : Nat) (before later : List Step) (step : Step)
    (split : program.steps.drop start = before ++ step :: later) :
    program.steps[start + before.length]? = some step ∧
      (program.upTo (start + before.length)).steps.drop start = before := by
  constructor
  · rw [← List.getElem?_drop, split]
    simp
  · rw [upTo, ← List.take_drop, split, List.take_left]

namespace Driver

variable {State : Type} (driver : Driver State) (deadline : Option Nat) (program : Program)
  (context : Context) (state : State)

structure OutputOf (report : Report) (after : State) (done : List Completion) : Prop where
  run : driver.run deadline program context state = .ok (report, after)
  ends : driver.Ends deadline context (program.steps.drop context.start) state done report.failed
    after
  completed : report.completed = done.map Completion.named
  among : ∀ one ∈ done, one.step ∈ program.steps.drop context.start ∧ one.step.isDue context = true
  key : ∀ key, key ∈ Entries.keys report.output ↔ ∃ one ∈ done, ∃ value, one.Leaves key value
  last : ∀ key value, Entries.find? key report.output = some value ↔
    ∃ earlier one later, done = earlier ++ one :: later ∧ one.Leaves key value ∧
      ∀ other ∈ later, ∀ value, ¬ other.Leaves key value
  order : Entries.keys report.output = (Entries.keys (done.filterMap Completion.left?)).eraseDups
  cut : ∀ failed ∈ report.failed, ∃ position step middle, context.start ≤ position ∧
    program.steps[position]? = some step ∧ step.isDue context = true ∧ failed.index = step.index ∧
    driver.run deadline (program.upTo position) context state =
      .ok ({ report with failed := none }, middle)

theorem empty_after_output (done : List Completion) (failed : Option FailedStep) :
    (Report.empty.after done failed).output = Entries.merge (done.filterMap Completion.left?) := rfl

theorem broken_run_cut (after : State) (done : List Completion) (failed : FailedStep)
    (ends : driver.Ends deadline context (program.steps.drop context.start) state done (some failed)
      after) :
    ∃ position step middle, context.start ≤ position ∧ program.steps[position]? = some step ∧
      step.isDue context = true ∧ failed.index = step.index ∧
      driver.run deadline (program.upTo position) context state =
        .ok (Report.empty.after done none, middle) := by
  cases ends with
  | broken before later failing error middle _ split due completes attempted _ =>
      obtain ⟨there, steps⟩ := program.up_to_split context.start before later failing split
      have within := (List.getElem?_eq_some_iff.mp there).1
      refine ⟨context.start + before.length, failing, middle, Nat.le_add_right _ _, there, attempted,
        rfl, ?_⟩
      rw [run_accepted driver deadline context _ state
        (by rw [program.up_to_length _ (Nat.le_of_lt within)]; exact Nat.le_add_right _ _), steps]
      exact congrArg Except.ok (completes.run_steps before due .empty)

theorem run_output (inside : context.start ≤ program.steps.length) :
    (∃ report after done, OutputOf driver deadline program context state report after done) ∧
      ∀ document, compile document = .ok program → program.Numbered ∧
        ∀ step ∈ program.steps, step.operation.action = step.action := by
  constructor
  · obtain ⟨done, failed, after, ends⟩ :=
      ends_somehow driver deadline context (program.steps.drop context.start) state
    refine ⟨Report.empty.after done failed, after, done, ?_, ends, rfl, ends.among, fun key => ?_,
      fun key value => ?_, ?_, ?_⟩
    · rw [run_accepted driver deadline context program state inside, ends.run_steps .empty rfl]
    · rw [empty_after_output, Entries.merge_keys, List.mem_eraseDups, Completion.keys_left]
    · rw [empty_after_output, Entries.merge_find, Completion.last_left]
    · rw [empty_after_output, Entries.merge_keys]
    · intro broken same
      cases same
      exact broken_run_cut driver deadline program context state after done broken ends
  · exact fun document compiled =>
      ⟨compile_numbered document program compiled, compile_actions document program compiled⟩

def receipts : Json :=
  object [("name", string "receipts"),
    ("steps", array [
      object [("name", string "Open"), ("action", string "navigate"),
        ("url", string "https://example.test/"), ("output", string "page")],
      object [("name", string "Count"), ("action", string "raw_code"), ("code", string "count()"),
        ("output", string "total")],
      object [("name", string "Check"), ("action", string "raw_code"), ("code", string "check()"),
        ("output", string "spare"),
        ("when", object [("field", string "input.user"), ("op", string "=="),
          ("value", string "")])],
      object [("name", string "Note"), ("action", string "raw_code"), ("code", string "note()"),
        ("output", string "note")],
      object [("name", string "Recount"), ("action", string "raw_code"), ("code", string "count()"),
        ("output", string "total")],
      object [("name", string "Send"), ("action", string "click"), ("selector", string "#send"),
        ("output", string "sent")]])]

def receiptsProgram : Program where
  name := "receipts"
  description := none
  inputs := []
  constants := []
  extractions := []
  outputs := []
  steps := [
    ⟨0, "Open", .navigate, none, none, some "page", none, .navigate "https://example.test/"⟩,
    ⟨1, "Count", .rawCode, none, none, some "total", none, .rawCode "count()"⟩,
    ⟨2, "Check", .rawCode, none, none, some "spare",
      some (.compare ⟨.input, ["user"]⟩ .equal (string "")), .rawCode "check()"⟩,
    ⟨3, "Note", .rawCode, none, none, some "note", none, .rawCode "note()"⟩,
    ⟨4, "Recount", .rawCode, none, none, some "total", none, .rawCode "count()"⟩,
    ⟨5, "Send", .click, some "#send", none, some "sent", none, .click "#send"⟩]

-- A driver that answers scripts with the values it holds, and finds nothing to click.
def answering : Driver (List (Option Json)) where
  delay := 0
  perform call answers :=
    match call with
    | .click selector => (.error (.elementNotFound selector), answers)
    | .runScript _ => (.ok (answers.headD none), answers.tail)
    | _ => (.ok none, answers)

-- The second total stands where the first one was, and the note is null.
theorem run_output_receipts :
    compile receipts = .ok receiptsProgram ∧
      (∃ report after done, OutputOf answering none receiptsProgram .empty
          [some (natural 1), some null, some (natural 3)] report after done ∧
        report.output = [("total", natural 3), ("note", null)] ∧ report.failed.isSome = true) ∧
      ∀ step ∈ receiptsProgram.steps, step.operation.action = step.action := by
  have compiled : compile receipts = .ok receiptsProgram := rfl
  obtain ⟨⟨report, after, done, output⟩, authored⟩ := run_output answering none receiptsProgram .empty
    [some (natural 1), some null, some (natural 3)] (by decide)
  refine ⟨compiled, ⟨report, after, done, output, ?_⟩, (authored receipts compiled).2⟩
  cases output.run
  exact ⟨rfl, rfl⟩

end Driver

end BrowserFlow
