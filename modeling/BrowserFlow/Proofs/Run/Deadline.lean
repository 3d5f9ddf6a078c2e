import BrowserFlow.Proofs.Run.Reads
/-! Deadlines. A deadline only cuts a run off: what the recorder receives under it begins what it receives
under any later one, and a run that no deadline ends is the same run under both. What a step was given up
for leaves no trace, neither in the log nor on the planned failures. -/
set_option autoImplicit false

namespace BrowserFlow

open Json

-- A deadline that is not after another one; where there is none, it is after all.
def NoLater (deadline other : Option Nat) : Prop :=
  ∀ limit ∈ other, ∃ sooner ∈ deadline, sooner ≤ limit

theorem late_iff (deadline : Option Nat) (finished limit : Nat) :
    deadline.filter (· < finished) = some limit ↔ deadline = some limit ∧ limit < finished := by
  rw [Option.filter_eq_some_iff, decide_eq_true_iff]

theorem in_time_sooner (deadline other : Option Nat) (sooner : NoLater deadline other)
    (finished : Nat) (inTime : deadline.filter (· < finished) = none) :
    other.filter (· < finished) = none := by
  rw [Option.filter_eq_none_iff] at inTime ⊢
  intro limit known
  obtain ⟨earlier, given, before⟩ := sooner limit known
  have enough := inTime earlier given
  simp only [decide_eq_true_iff] at enough ⊢
  omega

namespace Driver

variable {State : Type} (driver : Driver State) (deadline other : Option Nat) (context : Context)

-- Calls given up at a deadline: those received finish in time, the next one would not.
structure GivenUp (delay elapsed limit : Nat) (calls received : List Call) : Prop where
  next : ∃ abandoned rest, calls = received ++ abandoned :: rest
  inTime : ∀ place < received.length, elapsed + (place + 1) * delay ≤ limit
  late : limit < elapsed + (received.length + 1) * delay

theorem GivenUp.behind {delay elapsed limit : Nat} {call : Call} {calls received : List Call}
    (given : GivenUp delay (elapsed + delay) limit calls received) (first : elapsed + delay ≤ limit) :
    GivenUp delay elapsed limit (call :: calls) (call :: received) := by
  obtain ⟨⟨abandoned, rest, split⟩, inTime, late⟩ := given
  refine ⟨⟨abandoned, rest, by rw [split, List.cons_append]⟩, fun place within => ?_, ?_⟩
  · cases place with
    | zero => omega
    | succ place =>
        have before := inTime place (by simpa using within)
        rw [Nat.add_mul, Nat.one_mul]
        omega
  · rw [List.length_cons, Nat.add_mul, Nat.one_mul]
    omega

theorem perform_all_given_up (elapsed : Nat) (calls : List Call) (state after : State) (limit : Nat)
    (ended : driver.performAll deadline elapsed calls state = (.error (.deadline limit), after)) :
    deadline = some limit ∧
      GivenUp driver.delay elapsed limit calls (driver.issued deadline elapsed calls state) := by
  induction calls generalizing elapsed state with
  | nil => cases ended
  | cons call rest ih =>
      rw [performAll] at ended
      rw [issued]
      cases due : deadline.filter (· < elapsed + driver.delay) with
      | some given =>
          rw [due] at ended
          obtain ⟨known, late⟩ := (late_iff deadline _ given).mp due
          cases ended
          exact ⟨known, ⟨call, rest, rfl⟩, by simp, by simpa using late⟩
      | none =>
          simp only [due] at ended
          rcases performed : driver.perform call state with ⟨outcome, middle⟩
          rw [performed] at ended
          cases outcome with
          | error error => cases ended
          | ok produced =>
              rcases others : driver.performAll deadline (elapsed + driver.delay) rest middle with
                ⟨later, last⟩
              simp only [others] at ended
              cases later with
              | ok value => cases ended
              | error error =>
                  cases ended
                  obtain ⟨known, given⟩ := ih (elapsed + driver.delay) middle others
                  refine ⟨known, given.behind ?_⟩
                  have enough := (Option.filter_eq_none_iff.mp due) limit known
                  simpa using enough

theorem perform_all_sooner (sooner : NoLater deadline other) (elapsed : Nat) (calls : List Call)
    (state : State) :
    driver.performAll deadline elapsed calls state = driver.performAll other elapsed calls state ∨
      ∃ limit after,
        driver.performAll deadline elapsed calls state = (.error (.deadline limit), after) := by
  induction calls generalizing elapsed state with
  | nil => exact .inl rfl
  | cons call rest ih =>
      rw [performAll, performAll]
      cases late : deadline.filter (· < elapsed + driver.delay) with
      | some limit => exact .inr ⟨limit, state, rfl⟩
      | none =>
          rw [in_time_sooner deadline other sooner _ late]
          rcases driver.perform call state with ⟨outcome, middle⟩
          cases outcome with
          | error error => exact .inl rfl
          | ok produced =>
              rcases ih (elapsed + driver.delay) middle with same | ⟨limit, after, ended⟩
              · exact .inl (by simp only [same])
              · exact .inr ⟨limit, after, by simp only [ended]⟩

theorem issued_sooner (sooner : NoLater deadline other) (elapsed : Nat) (calls : List Call)
    (state : State) :
    driver.issued deadline elapsed calls state <+: driver.issued other elapsed calls state := by
  induction calls generalizing elapsed state with
  | nil => exact List.prefix_rfl
  | cons call rest ih =>
      rw [issued, issued]
      cases late : deadline.filter (· < elapsed + driver.delay) with
      | some limit => exact List.nil_prefix
      | none =>
          rw [in_time_sooner deadline other sooner _ late]
          rcases driver.perform call state with ⟨outcome, middle⟩
          cases outcome with
          | error error => exact List.prefix_rfl
          | ok produced => exact List.cons_prefix_cons.mpr ⟨rfl, ih _ _⟩

theorem perform_step_given_up (step : Step) (state after : State) (limit : Nat)
    (ended : driver.performStep deadline context step state = (.error (.deadline limit), after)) :
    deadline = some limit ∧ GivenUp driver.delay 0 limit (step.calls context)
      (driver.stepCalls deadline context step state) := by
  unfold performStep at ended
  unfold stepCalls Step.calls
  cases made : step.operation.calls context with
  | ok calls =>
      rw [made] at ended
      exact perform_all_given_up driver deadline 0 calls state after limit ended
  | error error =>
      rw [made] at ended
      cases ended
      rcases calls_error context step.operation _ made with ⟨target, _, _, same⟩ | ⟨found, same⟩
      · cases same
      · cases same

theorem perform_step_sooner (sooner : NoLater deadline other) (step : Step) (state : State) :
    driver.performStep deadline context step state = driver.performStep other context step state ∨
      ∃ limit after,
        driver.performStep deadline context step state = (.error (.deadline limit), after) := by
  unfold performStep
  cases step.operation.calls context with
  | ok calls => exact perform_all_sooner driver deadline other sooner 0 calls state
  | error error => exact .inl rfl

theorem step_calls_sooner (sooner : NoLater deadline other) (step : Step) (state : State) :
    driver.stepCalls deadline context step state <+: driver.stepCalls other context step state := by
  unfold stepCalls
  cases step.operation.calls context with
  | ok calls => exact issued_sooner driver deadline other sooner 0 calls state
  | error error => exact List.nil_prefix

end Driver

namespace Recording

def recordAll (calls : List Call) (recording : Recording) : Recording :=
  calls.foldl (fun recording call => (recording.record call).2) recording

theorem record_all_append (first second : List Call) (recording : Recording) :
    recording.recordAll (first ++ second) = (recording.recordAll first).recordAll second :=
  List.foldl_append

theorem record_calls (call : Call) (recording : Recording) :
    (recording.record call).2.calls = recording.calls ++ [call] := by
  unfold record
  cases chargeFirst call recording.failures <;> rfl

theorem record_all_calls (calls : List Call) (recording : Recording) :
    (recording.recordAll calls).calls = recording.calls ++ calls := by
  induction calls generalizing recording with
  | nil => simp [recordAll]
  | cons call rest ih =>
      have next := ih (recording.record call).2
      rw [record_calls, List.append_assoc] at next
      exact next

end Recording

namespace Driver

variable (scriptResult : Option Json) (delay : Nat) (deadline other : Option Nat) (context : Context)

theorem recorder_leaves (call : Call) (recording : Recording) :
    ((recorder scriptResult delay).perform call recording).2 = (recording.record call).2 := by
  simp only [recorder]
  rcases recording.record call with ⟨_ | _, after⟩ <;> rfl

theorem perform_all_leaves (elapsed : Nat) (calls : List Call) (recording : Recording) :
    ((recorder scriptResult delay).performAll deadline elapsed calls recording).2 =
      recording.recordAll ((recorder scriptResult delay).issued deadline elapsed calls recording) := by
  induction calls generalizing elapsed recording with
  | nil => rfl
  | cons call rest ih =>
      have left := recorder_leaves scriptResult delay call recording
      rw [performAll, issued]
      cases deadline.filter (· < elapsed + (recorder scriptResult delay).delay) with
      | some limit => rfl
      | none =>
          rcases performed : (recorder scriptResult delay).perform call recording with
            ⟨outcome, middle⟩
          rw [performed] at left
          cases outcome with
          | error error => exact left
          | ok produced =>
              have begun (later : List Call) :
                  recording.recordAll (call :: later) = middle.recordAll later := by
                simp only [Recording.recordAll, List.foldl_cons, ← left]
              simp only [begun, ← ih]
              rcases (recorder scriptResult delay).performAll deadline
                (elapsed + (recorder scriptResult delay).delay) rest middle with ⟨_ | _, after⟩
              · rfl
              · rfl

theorem perform_step_leaves (step : Step) (recording : Recording) :
    ((recorder scriptResult delay).performStep deadline context step recording).2 =
      recording.recordAll
        ((recorder scriptResult delay).stepCalls deadline context step recording) := by
  unfold performStep stepCalls
  cases step.operation.calls context with
  | ok calls => exact perform_all_leaves scriptResult delay deadline 0 calls recording
  | error error => rfl

def EndsLate (report : Report) : Prop :=
  ∃ failed ∈ report.failed, ∃ limit, failed.error = .deadline limit

-- Where the last step was given up, the call at which it was is not among those received, and so took
-- nothing from the planned failures.
structure Leaves (steps : List Step) (recording : Recording) (ran : Report × Recording)
    (earlier received : List Call) : Prop where
  recorded : ran.2 = recording.recordAll (earlier ++ received)
  abandoned : ∀ failed ∈ ran.1.failed, ∀ limit, failed.error = .deadline limit →
    deadline = some limit ∧ ∃ step ∈ steps, step.index = failed.index ∧
      GivenUp delay 0 limit (step.calls context) received

variable {delay deadline context} in
theorem Leaves.behind {steps : List Step} {recording middle : Recording} {ran : Report × Recording}
    {earlier received : List Call} (first : List Call) (step : Step)
    (reached : middle = recording.recordAll first)
    (leaves : Leaves delay deadline context steps middle ran earlier received) :
    Leaves delay deadline context (step :: steps) recording ran (first ++ earlier) received := by
  refine ⟨?_, fun failed known limit late => ?_⟩
  · rw [leaves.recorded, reached, List.append_assoc, Recording.record_all_append first]
  · obtain ⟨given, other, member, place⟩ := leaves.abandoned failed known limit late
    exact ⟨given, other, List.mem_cons_of_mem _ member, place⟩

theorem run_steps_leaves (steps : List Step) (report : Report) (fresh : report.failed = none)
    (recording : Recording) :
    ∃ earlier received, Leaves delay deadline context steps recording
      ((recorder scriptResult delay).runSteps deadline context steps report recording)
      earlier received := by
  induction steps generalizing report recording with
  | nil => exact ⟨[], [], rfl, fun failed known => by simp [runSteps, fresh] at known⟩
  | cons step rest ih =>
      rw [runSteps]
      cases step.isDue context with
      | false =>
          obtain ⟨earlier, received, leaves⟩ := ih report fresh recording
          exact ⟨[] ++ earlier, received, leaves.behind [] step rfl⟩
      | true =>
          have left := perform_step_leaves scriptResult delay deadline context step recording
          rcases performed : (recorder scriptResult delay).performStep deadline context step recording
            with ⟨outcome, middle⟩
          rw [performed] at left
          cases outcome with
          | ok produced =>
              obtain ⟨earlier, received, leaves⟩ := ih (report.complete step produced) fresh middle
              exact ⟨_, received, leaves.behind _ step left⟩
          | error error =>
              refine ⟨[], _, left, fun failed known limit late => ?_⟩
              cases known
              cases late
              obtain ⟨given, givenUp⟩ := perform_step_given_up _ deadline context step recording middle
                limit performed
              exact ⟨given, step, List.mem_cons_self, rfl, givenUp⟩

theorem run_steps_grow (steps : List Step) (report : Report) (fresh : report.failed = none)
    (recording : Recording) :
    recording.calls <+:
      ((recorder scriptResult delay).runSteps deadline context steps report recording).2.calls := by
  obtain ⟨earlier, received, leaves⟩ := run_steps_leaves scriptResult delay deadline context steps
    report fresh recording
  rw [leaves.recorded, Recording.record_all_calls]
  exact List.prefix_append _ _

theorem first_step_grows (step : Step) (rest : List Step) (due : step.isDue context = true)
    (report : Report) (fresh : report.failed = none) (recording : Recording) :
    recording.calls ++ (recorder scriptResult delay).stepCalls deadline context step recording <+:
      ((recorder scriptResult delay).runSteps deadline context (step :: rest) report
        recording).2.calls := by
  have left := perform_step_leaves scriptResult delay deadline context step recording
  rw [runSteps, if_pos due]
  rcases performed : (recorder scriptResult delay).performStep deadline context step recording
    with ⟨outcome, middle⟩
  rw [performed] at left
  rw [← Recording.record_all_calls, ← left]
  cases outcome with
  | ok produced =>
      exact run_steps_grow scriptResult delay deadline context rest (report.complete step produced) fresh
        middle
  | error error => exact List.prefix_rfl

theorem run_steps_sooner (sooner : NoLater deadline other) (steps : List Step) (report : Report)
    (fresh : report.failed = none) (recording : Recording) :
    (recorder scriptResult delay).runSteps deadline context steps report recording =
        (recorder scriptResult delay).runSteps other context steps report recording ∨
      EndsLate ((recorder scriptResult delay).runSteps deadline context steps report recording).1 ∧
        ((recorder scriptResult delay).runSteps deadline context steps report recording).2.calls <+:
          ((recorder scriptResult delay).runSteps other context steps report recording).2.calls := by
  induction steps generalizing report recording with
  | nil => exact .inl rfl
  | cons step rest ih =>
      cases due : step.isDue context with
      | false =>
          rw [runSteps, runSteps, due]
          exact ih report fresh recording
      | true =>
          rcases perform_step_sooner (recorder scriptResult delay) deadline other context sooner step
            recording with same | ⟨limit, after, ended⟩
          · rw [runSteps, runSteps, same, if_pos due, if_pos due]
            rcases (recorder scriptResult delay).performStep other context step recording with
              ⟨_ | produced, middle⟩
            · exact .inl rfl
            · exact ih (report.complete step produced) fresh middle
          · -- The step was given up under the sooner deadline, and the later one may let it go on.
            refine .inr ?_
            have left := perform_step_leaves scriptResult delay deadline context step recording
            have further := step_calls_sooner (recorder scriptResult delay) deadline other context sooner
              step recording
            have onward := first_step_grows scriptResult delay other context step rest due report fresh
              recording
            rw [ended] at left
            rw [runSteps, if_pos due, ended]
            refine ⟨⟨_, rfl, limit, rfl⟩, ?_⟩
            simp only at left
            rw [left, Recording.record_all_calls]
            exact ((List.prefix_append_right_inj _).mpr further).trans onward

structure CutOff (program : Program) (recording : Recording) (ran longer : Report × Recording) :
    Prop where
  log : ran.2.calls <+: longer.2.calls
  same : ¬ EndsLate ran.1 → ran = longer
  leaves : ∃ earlier received,
    Leaves delay deadline context program.steps recording ran earlier received

theorem deadlines_cut_off (program : Program) (sooner : NoLater deadline other)
    (recording : Recording) :
    (∃ error,
      (recorder scriptResult delay).run deadline program context recording = .error error ∧
        (recorder scriptResult delay).run other program context recording = .error error) ∨
      ∃ ran longer,
        (recorder scriptResult delay).run deadline program context recording = .ok ran ∧
          (recorder scriptResult delay).run other program context recording = .ok longer ∧
          CutOff delay deadline context program recording ran longer := by
  by_cases beyond : program.steps.length < context.start
  · exact .inl ⟨_, by rw [run, if_pos beyond], by rw [run, if_pos beyond]⟩
  · refine .inr ⟨_, _, by rw [run, if_neg beyond], by rw [run, if_neg beyond], ?_⟩
    have compared := run_steps_sooner scriptResult delay deadline other context sooner
      (program.steps.drop context.start) .empty rfl recording
    obtain ⟨earlier, received, recorded, abandoned⟩ := run_steps_leaves scriptResult delay deadline
      context (program.steps.drop context.start) .empty rfl recording
    refine ⟨?_, fun inTime => ?_, earlier, received, recorded, fun failed known limit late => ?_⟩
    · rcases compared with same | ⟨_, begins⟩
      · exact same ▸ List.prefix_rfl
      · exact begins
    · exact compared.resolve_right fun ended => inTime ended.1
    · obtain ⟨given, step, member, place⟩ := abandoned failed known limit late
      exact ⟨given, step, List.mem_of_mem_drop member, place⟩

-- The sign-in opens a page by two calls of two milliseconds each. Under a deadline of three it is given
-- up between them, and the failure planned for the second one is left.
theorem deadlines_cut_off_sign_in :
    NoLater (some 3) (some 4) ∧
      (recorder none 2).run (some 3) signInProgram ⟨[], [], [("user", string "ann")], 0⟩
          ⟨[], [⟨"wait_for_load", none, some 1⟩]⟩ =
        .ok (⟨[], some ⟨0, "Open", none, none, .deadline 3⟩, []⟩,
          ⟨[.navigate "https://example.test/"], [⟨"wait_for_load", none, some 1⟩]⟩) ∧
      ∃ ran longer,
        (recorder none 2).run (some 3) signInProgram ⟨[], [], [("user", string "ann")], 0⟩
            ⟨[], [⟨"wait_for_load", none, some 1⟩]⟩ = .ok ran ∧
          (recorder none 2).run (some 4) signInProgram ⟨[], [], [("user", string "ann")], 0⟩
            ⟨[], [⟨"wait_for_load", none, some 1⟩]⟩ = .ok longer ∧
          CutOff 2 (some 3) ⟨[], [], [("user", string "ann")], 0⟩ signInProgram
            ⟨[], [⟨"wait_for_load", none, some 1⟩]⟩ ran longer := by
  have sooner : NoLater (some 3) (some 4) := by simp [NoLater]
  refine ⟨sooner, rfl, ?_⟩
  have started : ¬ signInProgram.steps.length < 0 := by decide
  rcases deadlines_cut_off none 2 (some 3) (some 4) ⟨[], [], [("user", string "ann")], 0⟩ signInProgram
    sooner ⟨[], [⟨"wait_for_load", none, some 1⟩]⟩ with ⟨error, refused, _⟩ | compared
  · rw [run, if_neg started] at refused
    cases refused
  · exact compared

end Driver

end BrowserFlow
