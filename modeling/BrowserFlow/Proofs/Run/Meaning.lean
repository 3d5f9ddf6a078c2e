import BrowserFlow.Proofs.Program.Meaning
/-! Running a compiled document on the recording driver comes to what the document means. -/
set_option autoImplicit false

namespace BrowserFlow

open Json

variable (scriptResult : Option Json) (deadline : Option Nat) (context : Context)

theorem recorder_performs (calls : List Call) (recording : Recording) :
    (recorder scriptResult 0).performAll deadline 0 calls recording =
      match Meaning.perform calls recording with
      | (none, after) => (.ok (if calls.any Call.isScript then scriptResult else none), after)
      | (some error, after) => (.error (.driver error), after) := by
  have early : deadline.filter (· < 0 + (recorder scriptResult 0).delay) = none := by
    cases deadline <;> rfl
  induction calls generalizing recording with
  | nil => rfl
  | cons call rest ih =>
      simp only [Driver.performAll, Meaning.perform, early]
      rcases recorded : recording.record call with ⟨outcome, middle⟩
      cases outcome with
      | error error => simp [recorder, recorded]
      | ok done =>
          have performed : (recorder scriptResult 0).perform call recording =
              (.ok (if call.isScript then scriptResult else none), middle) := by
            simp only [recorder, recorded]
          simp only [performed]
          have next := ih middle
          simp only [recorder, Nat.add_zero] at next ⊢
          rw [next]
          rcases Meaning.perform rest middle with ⟨_ | error, after⟩
          · cases script : call.isScript <;> simp [script]
          · rfl

theorem calls_script (entries : Entries Json) (calls : List Call)
    (made : Meaning.calls context entries = .ok calls) :
    calls.any Call.isScript = Meaning.runsScript entries := by
  unfold Meaning.calls at made
  unfold Meaning.runsScript
  split at made
  case h_1 action | h_2 action | h_3 action | h_9 action | h_10 action =>
      cases made
      simp [action, Call.isScript]
  case h_4 action | h_5 action | h_6 action =>
      obtain ⟨value, _, rfl⟩ := (map_ok_iff _ _ _).mp made
      simp [action, Call.isScript]
  case h_7 action =>
      obtain ⟨files, _, named⟩ := (bind_ok_iff _ _ _).mp made
      split at named <;> cases named
      simp [action, Call.isScript]
  case h_8 action =>
      split at made <;> cases made <;> simp [action, Call.isScript]
  case h_11 raw spare =>
      cases made
      simp [beq_eq_false_iff_ne.mpr raw, beq_eq_false_iff_ne.mpr spare]

theorem completed_stands (step : Step) (index : Nat) (entries : Entries Json)
    (stands : step.Stands index entries) (report : Report) :
    report.complete step (if Meaning.runsScript entries then scriptResult else none) =
      Meaning.completed scriptResult index entries report := by
  simp only [Report.complete, Meaning.completed, stands.index, stands.name, stands.output]
  cases Condition.text? "output" entries with
  | none => rfl
  | some key =>
      cases Meaning.runsScript entries with
      | false => cases scriptResult <;> rfl
      | true => cases scriptResult <;> rfl

theorem failed_stands (step : Step) (index : Nat) (entries : Entries Json)
    (stands : step.Stands index entries) (report : Report) (error : StepError) :
    report.fail step error = Meaning.failed error index entries report := by
  simp only [Report.fail, Meaning.failed, stands.index, stands.name, stands.selector, stands.hint]

theorem steps_interpreted (index : Nat) (steps : List Step) (authored : List Json)
    (stand : Stand index steps authored) (report : Report) (recording : Recording) :
    (recorder scriptResult 0).runSteps deadline context steps report recording =
      Meaning.interpretSteps scriptResult context index authored report recording := by
  induction stand generalizing report recording with
  | done index => rfl
  | step index step item steps others stands rest ih =>
      rw [Driver.runSteps, Meaning.interpretSteps, stands.due context]
      cases Meaning.isDue context (entriesOf item) with
      | false => exact ih report recording
      | true =>
          simp only [if_true, Driver.performStep, stands.calls context]
          cases made : Meaning.calls context (entriesOf item) with
          | error error => simp only [failed_stands step index _ stands report error]
          | ok calls =>
              simp only [recorder_performs, calls_script context _ calls made]
              rcases Meaning.perform calls recording with ⟨_ | error, after⟩
              · simp only [completed_stands scriptResult step index _ stands report]
                exact ih _ after
              · simp only [failed_stands step index _ stands report (.driver error)]

theorem compile_preserves_meaning (document : Json) (proper : document.wellFormed = true)
    (valid : Authoring.isValid document = true)
    (inside : context.start ≤ (Meaning.stepsOf document).length) (recording : Recording) :
    ∃ program, compile document = .ok program ∧
      program.steps.length = (Meaning.stepsOf document).length ∧
      (recorder scriptResult 0).run deadline program context recording =
        .ok (Meaning.interpret scriptResult context document recording) := by
  obtain ⟨program, compiled, stand⟩ := document_stands document proper (List.isEmpty_iff.mp valid)
  have within : ¬program.steps.length < context.start := by
    rw [stand.length]
    exact Nat.not_lt.mpr inside
  have started := stand.drop context.start
  rw [Nat.zero_add] at started
  refine ⟨program, compiled, stand.length, ?_⟩
  rw [Driver.run, if_neg within, steps_interpreted scriptResult deadline context _ _ _ started]
  rfl

theorem compile_preserves_meaning_sign_in :
    signIn.wellFormed = true ∧ Authoring.isValid signIn = true ∧
      (Meaning.stepsOf signIn).length = 3 ∧
      ∃ program, compile signIn = .ok program ∧
        program.steps.length = (Meaning.stepsOf signIn).length ∧
        (recorder none 0).run (some 5) program
            { Context.empty with input := [("user", string "ann")], start := 1 }
            ⟨[], [⟨"click", none, none⟩]⟩ =
          .ok (Meaning.interpret none
            { Context.empty with input := [("user", string "ann")], start := 1 } signIn
            ⟨[], [⟨"click", none, none⟩]⟩) :=
  ⟨by decide, by decide, rfl, compile_preserves_meaning none (some 5)
    { Context.empty with input := [("user", string "ann")], start := 1 } signIn (by decide)
    (by decide) (by decide) ⟨[], [⟨"click", none, none⟩]⟩⟩

end BrowserFlow
