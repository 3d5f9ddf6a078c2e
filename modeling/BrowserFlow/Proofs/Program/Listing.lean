import BrowserFlow.Proofs.Json.Numeral
import BrowserFlow.Proofs.Program.Compile
import BrowserFlow.Proofs.Text.Lines
/-! Listings and their comments. Names, hints and descriptions of a program stand behind `//`; a description
is written line by line, but a name or hint is not. So two programs that differ in these only are listed
alike, but for comments, exactly when every line of their names and hints stays a comment. -/
set_option autoImplicit false

namespace BrowserFlow

open Json

def isComment : List Char → Bool
  | '/' :: '/' :: _ => true
  | _ => false

def codeLines (text : String) : List (List Char) :=
  (Text.splitAt '\n' text.toList).filter fun line => !isComment line

theorem code_lines_line (text rest : String) :
    codeLines (Step.line text ++ rest) = codeLines text ++ codeLines rest := by
  have chars : (Step.line text ++ rest).toList = text.toList ++ '\n' :: rest.toList := by
    simp [Step.line]
  rw [codeLines, chars, Text.split_at_append, List.filter_append]
  rfl

theorem code_lines_join (texts : List String) (rest : String) :
    codeLines (String.join (texts.map Step.line) ++ rest) = texts.flatMap codeLines ++ codeLines rest := by
  induction texts with
  | nil => simp
  | cons text others ih =>
      rw [List.map_cons, String.join_cons, String.append_assoc, code_lines_line, ih, List.flatMap_cons,
        List.append_assoc]

theorem comment_iff (line : List Char) :
    isComment line = true ↔ ∃ rest, line = '/' :: '/' :: rest := by
  unfold isComment
  split
  · simp
  · rename_i other
    exact ⟨nofun, fun ⟨rest, same⟩ => absurd same (other rest)⟩

theorem comment_front (front rest : List Char) (comment : isComment front = true) :
    isComment (front ++ rest) = true := by
  obtain ⟨more, rfl⟩ := (comment_iff front).mp comment
  rfl

theorem comment_before (line rest : List Char) (plain : rest.head? ≠ some '/') :
    isComment (line ++ rest) = isComment line := by
  rw [Bool.eq_iff_iff, comment_iff, comment_iff]
  match line with
  | [] | [_] => cases rest <;> simp_all
  | _ :: _ :: _ => simp

def StaysComment (text : String) : Prop :=
  ∀ line ∈ (Text.splitAt '\n' text.toList).tail, isComment line = true

instance (text : String) : Decidable (StaysComment text) :=
  inferInstanceAs (Decidable (∀ line ∈ (Text.splitAt '\n' text.toList).tail, isComment line = true))

theorem stays_comment_plain (text : String) (free : '\n' ∉ text.toList) : StaysComment text := by
  rw [StaysComment, Text.split_at_free '\n' _ free]
  simp

-- What is written behind a text changes its last line only, and does not make a comment of it.
theorem lines_before (chars behind : List Char) (free : '\n' ∉ behind)
    (plain : behind.head? ≠ some '/') :
    ∃ first rest start others, Text.splitAt '\n' chars = first :: rest ∧
      Text.splitAt '\n' (chars ++ behind) = start :: others ∧
      (start = first ∨ start = first ++ behind) ∧ others.map isComment = rest.map isComment := by
  induction chars with
  | nil => exact ⟨[], [], behind, [], rfl, Text.split_at_free '\n' behind free, .inr rfl, rfl⟩
  | cons c tail ih =>
      obtain ⟨first, rest, start, others, cut, cutBefore, starts, same⟩ := ih
      by_cases feed : c = '\n'
      · refine ⟨[], first :: rest, [], start :: others, ?_, ?_, .inl rfl, ?_⟩
        · rw [Text.splitAt, if_pos feed, cut]
        · rw [List.cons_append, Text.splitAt, if_pos feed, cutBefore]
        · rw [List.map_cons, List.map_cons, same]
          rcases starts with rfl | rfl
          · rfl
          · rw [comment_before first behind plain]
      · refine ⟨c :: first, rest, c :: start, others, ?_, ?_, ?_, same⟩
        · rw [Text.splitAt, if_neg feed, cut]
        · rw [List.cons_append, Text.splitAt, if_neg feed, cutBefore]
        · rcases starts with rfl | rfl
          · exact .inl rfl
          · exact .inr rfl

theorem label_code_iff (front text behind : String) (comment : isComment front.toList = true)
    (frontFree : '\n' ∉ front.toList) (behindFree : '\n' ∉ behind.toList)
    (plain : behind.toList.head? ≠ some '/') :
    codeLines (front ++ text ++ behind) = [] ↔ StaysComment text := by
  obtain ⟨first, rest, start, others, cut, cutBefore, _, same⟩ :=
    lines_before text.toList behind.toList behindFree plain
  have chars : (front ++ text ++ behind).toList = front.toList ++ (text.toList ++ behind.toList) := by
    simp
  have all : (∀ line ∈ others, isComment line = true) ↔ ∀ line ∈ rest, isComment line = true := by
    rw [← List.forall_mem_map (P := (· = true)), same, List.forall_mem_map]
  rw [codeLines, chars, Text.split_at_before '\n' _ _ start others frontFree cutBefore, StaysComment, cut,
    List.tail_cons, List.filter_cons_of_neg (by simp [comment_front front.toList start comment]),
    List.filter_eq_nil_iff, ← all]
  simp

theorem comment_code (front text : String) (comment : isComment front.toList = true)
    (frontFree : '\n' ∉ front.toList) (free : '\n' ∉ text.toList) : codeLines (front ++ text) = [] := by
  have code := (label_code_iff front text "" comment frontFree (by simp) (by simp)).mpr
    (stays_comment_plain text free)
  rwa [String.append_empty] at code

namespace Step

def heading (step : Step) : String :=
  "// [" ++ Text.ofNat step.index ++ "] " ++ step.name ++ (" (" ++ step.action.name ++ ")")

def selectorLines (step : Step) : List String :=
  (step.selector.map ("//     selector: " ++ ·)).toList

def hintLines (step : Step) : List String :=
  (step.hint.map ("//     hint: " ++ ·)).toList

def bodyLines (step : Step) : List String :=
  let margin := if step.guard.isSome then "    " else ""
  let ending := if step.action == .rawCode then "" else ";"
  (step.guard.map fun guard => "if (" ++ guard.display ++ ") \x7b").toList ++
    step.operation.lines.map (fun call => margin ++ call ++ ending) ++
    (step.outputKey.map (margin ++ "// result stored as output." ++ ·)).toList ++
    (if step.guard.isSome then ["\x7d"] else [])

theorem listing_lines (step : Step) :
    step.listing = String.join
      (("" :: step.heading :: (step.selectorLines ++ step.hintLines ++ step.bodyLines)).map line) := by
  rcases step with ⟨index, name, action, selector, hint, outputKey, guard, operation⟩
  cases selector <;> cases hint <;> cases outputKey <;> cases guard <;>
    simp [listing, heading, selectorLines, hintLines, bodyLines, String.append_assoc, Function.comp_def]

def labelCode (step : Step) : List (List Char) :=
  codeLines step.heading ++ step.hintLines.flatMap codeLines

def code (step : Step) : List (List Char) :=
  [[]] ++ codeLines step.heading ++ step.selectorLines.flatMap codeLines ++
    step.hintLines.flatMap codeLines ++ step.bodyLines.flatMap codeLines

def unlabelled (step : Step) : Step :=
  { step with name := "", hint := none }

structure LabelsStay (step : Step) : Prop where
  name : StaysComment step.name
  hint : ∀ hint ∈ step.hint, StaysComment hint

instance (step : Step) : Decidable step.LabelsStay :=
  decidable_of_iff (StaysComment step.name ∧ ∀ hint ∈ step.hint, StaysComment hint)
    ⟨fun ⟨name, hint⟩ => ⟨name, hint⟩, fun stay => ⟨stay.name, stay.hint⟩⟩

theorem heading_code_iff (step : Step) : codeLines step.heading = [] ↔ StaysComment step.name := by
  have digits : '\n' ∉ (Text.ofNat step.index).toList := by
    rw [Text.ofNat, String.toList_ofList]
    exact Text.free_of_class _ _ (digits_digit step.index) '\n' (by decide)
  have comment : isComment ("// [" ++ Text.ofNat step.index ++ "] ").toList = true := by
    rw [String.append_assoc, String.toList_append]
    exact comment_front _ _ rfl
  have action : '\n' ∉ (" (" ++ step.action.name ++ ")").toList := by
    cases step.action <;> decide
  exact label_code_iff _ step.name _ comment (by simp [digits]) action (by simp)

theorem label_code_nil_iff (step : Step) : step.labelCode = [] ↔ step.LabelsStay := by
  have hints : step.hintLines.flatMap codeLines = [] ↔ ∀ hint ∈ step.hint, StaysComment hint := by
    unfold hintLines
    cases step.hint with
    | none => simp
    | some hint =>
        have shown := label_code_iff "//     hint: " hint "" rfl (by decide) (by simp) (by simp)
        rw [String.append_empty] at shown
        simp [shown]
  rw [labelCode, List.append_eq_nil_iff, heading_code_iff, hints]
  exact ⟨fun ⟨name, hint⟩ => ⟨name, hint⟩, fun stay => ⟨stay.name, stay.hint⟩⟩

theorem listing_code (step : Step) (rest : String) :
    codeLines (step.listing ++ rest) = step.code ++ codeLines rest := by
  rw [listing_lines, code_lines_join]
  simp only [List.flatMap_cons, List.flatMap_append, code, List.append_assoc]
  rfl

theorem unlabelled_code (step : Step) :
    step.unlabelled.code = [[]] ++ step.selectorLines.flatMap codeLines ++
      step.bodyLines.flatMap codeLines := by
  have heading := (heading_code_iff step.unlabelled).mpr (stays_comment_plain "" (by simp))
  have hints : step.unlabelled.hintLines = [] := rfl
  rw [code, heading, hints, List.append_nil, List.flatMap_nil, List.append_nil]
  rfl

theorem code_length (step : Step) :
    step.code.length = step.unlabelled.code.length + step.labelCode.length := by
  rw [unlabelled_code]
  simp only [code, labelCode, List.length_append]
  omega

theorem code_of_labels_stay (step : Step) (stay : step.LabelsStay) : step.code = step.unlabelled.code := by
  have none := (label_code_nil_iff step).mpr stay
  rw [labelCode, List.append_eq_nil_iff] at none
  rw [unlabelled_code, code, none.1, none.2]
  simp

end Step

namespace Program

def heading (program : Program) : String :=
  "// program: " ++ program.name ++ " (" ++ Text.ofNat program.steps.length ++ " step(s))"

def unlabelled (program : Program) : Program :=
  { program with description := none, steps := program.steps.map Step.unlabelled }

theorem steps_code (steps : List Step) :
    codeLines (String.join (steps.map Step.listing)) = steps.flatMap Step.code ++ [[]] := by
  induction steps with
  | nil => rfl
  | cons step rest ih =>
      rw [List.map_cons, String.join_cons, Step.listing_code, ih, List.flatMap_cons, List.append_assoc]

def descriptionLines (program : Program) : List String :=
  program.description.toList.flatMap fun description => (Text.lines description).map ("// " ++ ·)

theorem listing_lines (program : Program) :
    program.listing = Step.line program.heading ++
      (String.join (program.descriptionLines.map Step.line) ++
        String.join (program.steps.map Step.listing)) := by
  rcases program with ⟨name, description, inputs, constants, extractions, outputs, steps⟩
  cases description <;> simp [listing, heading, descriptionLines, String.append_assoc, Function.comp_def]

theorem description_code (program : Program) : program.descriptionLines.flatMap codeLines = [] := by
  rw [List.flatMap_eq_nil_iff]
  intro text listed
  obtain ⟨description, _, inside⟩ := List.mem_flatMap.mp listed
  obtain ⟨line, within, rfl⟩ := List.mem_map.mp inside
  exact comment_code "// " line rfl (by decide) (Text.lines_free description line within)

theorem listing_code (program : Program) :
    codeLines program.listing =
      codeLines program.heading ++ (program.steps.flatMap Step.code ++ [[]]) := by
  rw [listing_lines, code_lines_line, code_lines_join, description_code, steps_code, List.nil_append]

theorem unlabelled_heading (program : Program) : program.unlabelled.heading = program.heading := by
  simp [heading, unlabelled]

theorem steps_code_length (steps : List Step) :
    (steps.flatMap Step.code).length =
      ((steps.map Step.unlabelled).flatMap Step.code).length + (steps.flatMap Step.labelCode).length := by
  induction steps with
  | nil => rfl
  | cons step rest ih =>
      simp only [List.map_cons, List.flatMap_cons, List.length_append, ih, step.code_length]
      omega

-- A label that escapes its comment adds lines of code, and none takes one away: so the lengths tell.
theorem steps_code_iff (steps : List Step) :
    steps.flatMap Step.code = (steps.map Step.unlabelled).flatMap Step.code ↔
      ∀ step ∈ steps, step.LabelsStay := by
  constructor
  · intro same step listed
    have lengths := steps_code_length steps
    rw [same, Nat.left_eq_add, List.length_eq_zero_iff, List.flatMap_eq_nil_iff] at lengths
    exact step.label_code_nil_iff.mp (lengths step listed)
  · intro stay
    rw [List.flatMap_map]
    exact List.flatMap_congr fun step listed => step.code_of_labels_stay (stay step listed)

theorem code_unlabelled_iff (program : Program) :
    codeLines program.listing = codeLines program.unlabelled.listing ↔
      ∀ step ∈ program.steps, step.LabelsStay := by
  rw [listing_code, listing_code, unlabelled_heading, List.append_cancel_left_eq,
    List.append_cancel_right_eq]
  exact steps_code_iff program.steps

theorem listed_alike_iff (program other : Program) (same : program.unlabelled = other.unlabelled)
    (stay : ∀ step ∈ other.steps, step.LabelsStay) :
    codeLines program.listing = codeLines other.listing ↔ ∀ step ∈ program.steps, step.LabelsStay := by
  rw [(code_unlabelled_iff other).mpr stay, ← same]
  exact code_unlabelled_iff program

end Program

def annotatedSignIn : Program :=
  { signInProgram with
    description := some "Signs in.\nclick('#none');"
    steps := signInProgram.steps.map fun step =>
      { step with name := step.name ++ "\n// as told", hint := some "Wait for the page." } }

theorem annotated_sign_in_comments :
    annotatedSignIn.unlabelled = signInProgram.unlabelled ∧
      codeLines annotatedSignIn.listing = codeLines signInProgram.listing :=
  ⟨by rfl, (Program.listed_alike_iff annotatedSignIn signInProgram (by rfl) (by decide +kernel)).mpr
    (by decide +kernel)⟩

def paying (name : String) : Json :=
  object [("name", string "payment"),
    ("steps", array [
      object [("name", string name), ("action", string "click"), ("selector", string "#pay")]])]

def payingProgram (name : String) : Program where
  name := "payment"
  description := none
  inputs := []
  constants := []
  extractions := []
  outputs := []
  steps := [⟨0, name, .click, some "#pay", none, none, none, .click "#pay"⟩]

-- A name of two lines is no comment: the second line is listed as a call.
theorem paying_name_listed :
    compile (paying "Pay") = .ok (payingProgram "Pay") ∧
      compile (paying "Pay\nclick('#all');") = .ok (payingProgram "Pay\nclick('#all');") ∧
      (payingProgram "Pay\nclick('#all');").unlabelled = (payingProgram "Pay").unlabelled ∧
      "click('#all'); (click)".toList ∈ codeLines (payingProgram "Pay\nclick('#all');").listing ∧
      codeLines (payingProgram "Pay\nclick('#all');").listing ≠ codeLines (payingProgram "Pay").listing := by
  refine ⟨by rfl, by rfl, by rfl, by decide +kernel, by decide +kernel⟩

end BrowserFlow
