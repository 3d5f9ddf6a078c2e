import BrowserFlow.Proofs.Run.Dry
/-! Listings and runs. The calls that a step makes in a run are those that its listing shows, one for each
line and in the same order, with the value that an expression comes to in place of the expression. -/
set_option autoImplicit false

namespace BrowserFlow

open Json

namespace Call

def argumentTexts : Call → List String
  | navigate url => [literalText (string url)]
  | waitForLoad => []
  | fill selector value => [literalText (string selector), literalText value]
  | click selector => [literalText (string selector)]
  | press selector key => [literalText (string selector), literalText (string key)]
  | typeText text => [literalText text]
  | selectOption selector value => [literalText (string selector), literalText value]
  | setFiles selector files => [literalText (string selector), literalText files]
  | waitForSelector selector timeout => [literalText (string selector), Text.ofNat timeout]
  | runScript code => [literalText (string code)]

def shown (call : Call) : String :=
  call.method ++ "(" ++ Text.joinWith ", " call.argumentTexts ++ ")"

end Call

namespace Operation

def isRaw : Operation → Bool
  | rawCode _ => true
  | _ => false

-- The lines of an operation's listing, with a text of one's own for its expression.
def linesWith (shown : Expression → String) : Operation → List String
  | navigate url => [shownCall "navigate" [shownText url], shownCall "wait_for_load" []]
  | fill selector value => [shownCall "fill" [shownText selector, shown value]]
  | click selector => [shownCall "click" [shownText selector]]
  | press selector key => [shownCall "press" [shownText selector, shownText key]]
  | type value => [shownCall "type_text" [shown value]]
  | select selector value => [shownCall "select_option" [shownText selector, shown value]]
  | fileUpload selector files => [shownCall "set_files" [shownText selector, shown files]]
  | wait selector timeout => [shownCall "wait_for_selector" [shownText selector, Text.ofNat timeout]]
  | rawCode code => Text.lines code

theorem lines_with_display (operation : Operation) :
    operation.lines = operation.linesWith Expression.display := by
  cases operation <;> rfl

end Operation

def Expression.valueText (context : Context) (expression : Expression) : String :=
  match expression.evaluate context with
  | .ok value => literalText value
  | .error _ => ""

theorem calls_shown (context : Context) (operation : Operation) (listed : operation.isRaw = false)
    (calls : List Call) (made : operation.calls context = .ok calls) :
    calls.map Call.shown = operation.linesWith (Expression.valueText context) := by
  have valued : ∀ (expression : Expression) value, expression.value context = .ok value →
      expression.valueText context = literalText value := by
    intro expression value found
    unfold Expression.value at found
    unfold Expression.valueText
    cases evaluated : expression.evaluate context with
    | ok other =>
        rw [evaluated] at found
        cases found
        rfl
    | error target =>
        rw [evaluated] at found
        cases found
  cases operation with
  | navigate | click | press | wait =>
      cases made
      rfl
  | fill selector expression | type expression | select selector expression =>
      obtain ⟨value, found, same⟩ := (bind_ok_iff _ _ _).mp made
      cases same
      rw [Operation.linesWith, valued expression value found]
      rfl
  | fileUpload selector expression =>
      obtain ⟨value, found, named⟩ := (bind_ok_iff _ _ _).mp made
      split at named
      · cases named
        rw [Operation.linesWith, valued expression value found]
        rfl
      · cases named
  | rawCode code => cases listed

-- An authored value without references is a literal, and so is shown as the value that it comes to.
theorem reference_free_literal (authored : Json) (free : (Expression.ofValue authored).references = []) :
    Expression.ofValue authored = .literal authored := by
  cases authored with
  | string raw =>
      rw [Expression.ofValue] at free ⊢
      unfold Expression.ofText at free ⊢
      dsimp only at free ⊢
      split at free
      · cases free
      · split at free
        · rename_i referring
          obtain ⟨segment, member, refers⟩ := List.any_eq_true.mp referring
          obtain ⟨target, found⟩ := Option.isSome_iff_exists.mp refers
          have listed : target ∈ (Segment.ofText raw).filterMap Segment.reference? :=
            List.mem_filterMap.mpr ⟨segment, member, found⟩
          rw [Expression.references] at free
          rw [free] at listed
          cases listed
        · rename_i plain
          rw [if_neg plain]
  | _ => rfl

theorem reference_free_text (context : Context) (authored : Json)
    (free : (Expression.ofValue authored).references = []) :
    (Expression.ofValue authored).valueText context = (Expression.ofValue authored).display := by
  rw [reference_free_literal authored free]
  rfl

theorem lines_congr (operation : Operation) (shown other : Expression → String)
    (same : ∀ expression ∈ operation.expression?, shown expression = other expression) :
    operation.linesWith shown = operation.linesWith other := by
  cases operation with
  | fill selector expression | type expression | select selector expression
  | fileUpload selector expression => simp only [Operation.linesWith, same expression rfl]
  | _ => rfl

theorem fixed_lines (context : Context) (index : Nat) (authored : AuthoredStep) (step : Step)
    (compiled : authored.compile index = .ok step)
    (free : ∀ expression ∈ step.operation.expression?, expression.references = []) :
    step.operation.linesWith (Expression.valueText context) = step.operation.lines := by
  obtain ⟨action, guard, operation, _, _, operated, rfl⟩ :=
    (AuthoredStep.compile_ok_iff index authored step).mp compiled
  rw [Operation.lines_with_display]
  refine lines_congr operation _ _ fun expression there => ?_
  rcases authored.operation_expression action operation operated expression there with
    ⟨value, _, rfl⟩ | ⟨file, _, rfl⟩
  · exact reference_free_text context value (free _ there)
  · exact reference_free_text context (string file) (free _ there)

theorem recorder_unhindered (scriptResult : Option Json) (delay elapsed : Nat) (calls log : List Call) :
    (recorder scriptResult delay).performAll none elapsed calls ⟨log, []⟩ =
      (.ok (if calls.any Call.isScript then scriptResult else none), ⟨log ++ calls, []⟩) := by
  induction calls generalizing elapsed log with
  | nil => simp [Driver.performAll]
  | cons call rest ih =>
      have performed : (recorder scriptResult delay).perform call ⟨log, []⟩ =
          (.ok (if call.isScript then scriptResult else none), ⟨log ++ [call], []⟩) := rfl
      simp only [Driver.performAll, Option.filter_none, performed, ih]
      cases script : call.isScript <;> simp [script]

structure Step.MadeAsListed (context : Context) (step : Step) (calls : List Call) : Prop where
  counted : step.operation.isRaw = false → calls.length = step.operation.lines.length
  shown : step.operation.isRaw = false →
    step.operation.lines = step.operation.linesWith Expression.display ∧
      calls.map Call.shown = step.operation.linesWith (Expression.valueText context)
  fixed : step.operation.isRaw = false → ∀ index authored,
    AuthoredStep.compile index authored = .ok step →
    (∀ expression ∈ step.operation.expression?, expression.references = []) →
    calls.map Call.shown = step.operation.lines
  verbatim : ∀ code, step.operation = .rawCode code → calls = [.runScript code]

theorem made_as_listed (context : Context) (step : Step) (calls : List Call)
    (made : step.operation.calls context = .ok calls) : step.MadeAsListed context calls := by
  have texts := fun listed => calls_shown context step.operation listed calls made
  refine ⟨fun listed => ?_, fun listed => ⟨step.operation.lines_with_display, texts listed⟩,
    fun listed index authored compiled free => ?_, fun code raw => ?_⟩
  · have lengths := congrArg List.length (texts listed)
    rw [List.length_map] at lengths
    rw [lengths]
    cases step.operation <;> rfl
  · rw [texts listed, fixed_lines context index authored step compiled free]
  · rw [raw] at made
    cases made
    rfl

theorem listed_calls_made (scriptResult : Option Json) (delay : Nat) (context : Context) (step : Step)
    (evaluates : step.Evaluates context) (log : List Call) :
    ∃ calls, step.MadeAsListed context calls ∧
      (recorder scriptResult delay).performStep none context step ⟨log, []⟩ =
        (.ok (if calls.any Call.isScript then scriptResult else none), ⟨log ++ calls, []⟩) := by
  obtain ⟨calls, made⟩ := calls_made context step evaluates
  refine ⟨calls, made_as_listed context step calls made, ?_⟩
  rw [Driver.performStep, made]
  exact recorder_unhindered scriptResult delay 0 calls log

theorem listed_calls_made_sign_in :
    let context : Context := ⟨[], [], [("user", string "ann")], 0⟩
    ∃ step ∈ signInProgram.steps, step.Evaluates context ∧
      step.operation.lines = ["fill('#user', input.user)"] ∧
      ∃ calls, step.MadeAsListed context calls ∧ calls.map Call.shown = ["fill('#user', 'ann')"] ∧
        (recorder none 5).performStep none context step ⟨[.waitForLoad], []⟩ =
          (.ok none, ⟨.waitForLoad :: calls, []⟩) := by
  intro context
  refine ⟨_, .tail _ (.head _), ?_⟩
  have evaluates : Step.Evaluates context ⟨1, "Enter", .fill, some "#user", none, none,
      some (.compare ⟨.input, ["user"]⟩ .notEqual (string "")),
      .fill "#user" (.lookup ⟨.input, ["user"]⟩)⟩ :=
    (Step.evaluates_iff context _).mpr ⟨_, rfl⟩
  obtain ⟨calls, listed, performed⟩ := listed_calls_made none 5 context _ evaluates [.waitForLoad]
  refine ⟨evaluates, rfl, calls, listed, (listed.shown rfl).2.trans rfl, ?_⟩
  rw [performed]
  cases calls.any Call.isScript <;> rfl

end BrowserFlow
