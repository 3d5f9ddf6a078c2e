import BrowserFlow.Proofs.Authoring.Soundness
import BrowserFlow.Proofs.Files.Path
/-! Violations of one part of a document are independent of the other parts. Two documents that differ at
one place have the same report but for what is at the place or below it; for a part of a condition, also but
for the verdicts about the conditions around it, which fit or do not fit with it. -/
set_option autoImplicit false

namespace BrowserFlow.Authoring

open Json

-- The values are equal but for what they have at the place; the first may lack the last key of it.
inductive DiffersAt : Pointer → Json → Json → Prop where
  | here (left right : Json) : DiffersAt [] left right
  | entry (front back : Entries Json) (key : String) (left right : Json) (rest : Pointer)
      (inside : DiffersAt rest left right) :
      DiffersAt (.key key :: rest) (object (front ++ (key, left) :: back))
        (object (front ++ (key, right) :: back))
  | added (front back : Entries Json) (key : String) (right : Json) :
      DiffersAt [.key key] (object (front ++ back)) (object (front ++ (key, right) :: back))
  | item (front back : List Json) (left right : Json) (rest : Pointer)
      (inside : DiffersAt rest left right) :
      DiffersAt (.index front.length :: rest) (array (front ++ left :: back))
        (array (front ++ right :: back))

inductive IsPart : Pointer → Prop where
  | step (place : Nat) : IsPart [.key "steps", .index place]
  | parameter (name : String) : IsPart [.key "input", .key name]
  | extraction (place : Nat) : IsPart [.key "extract", .index place]
  | output (name : String) : IsPart [.key "output", .key name]

theorem entry_well_formed {front back : Entries Json} {key : String} {value : Json}
    (proper : (object (front ++ (key, value) :: back)).wellFormed = true) : value.wellFormed = true :=
  ((object_well_formed_iff _).mp proper).2 (key, value) (by simp)

theorem item_well_formed {front back : List Json} {value : Json}
    (proper : (array (front ++ value :: back)).wellFormed = true) : value.wellFormed = true :=
  (array_well_formed_iff _).mp proper value (by simp)

def isBelow (place path : String) : Bool :=
  path == place || (place ++ "/").toList.isPrefixOf path.toList

theorem below_iff (place : Token) (rest : Pointer) (token : Token) (others : Pointer) :
    isBelow (Pointer.text (place :: rest)) (Pointer.text (token :: others)) = true ↔
      (place :: rest).map Token.text <+: (token :: others).map Token.text := by
  simp only [isBelow, Bool.or_eq_true, beq_iff_eq, List.isPrefixOf_iff_prefix, String.toList_append]
  constructor
  · intro below
    have cut : ∃ more, Text.splitAt '/' (Pointer.text (token :: others)).toList =
        Text.splitAt '/' (Pointer.text (place :: rest)).toList ++ more := by
      cases below with
      | inl same => exact ⟨[], by rw [same, List.append_nil]⟩
      | inr inside =>
          obtain ⟨more, written⟩ := inside
          refine ⟨Text.splitAt '/' more, ?_⟩
          rw [← Text.split_at_append, ← written]
          simp
    obtain ⟨more, cut⟩ := cut
    rw [Pointer.text_split, Pointer.text_split, List.cons_append, List.cons.injEq] at cut
    rw [← List.prefix_map_iff_of_injective (f := String.toList) fun _ _ => String.toList_injective,
      List.map_map, List.map_map]
    exact ⟨more, cut.2.symm⟩
  · intro first
    obtain ⟨more, written⟩ := first
    have whole : (Pointer.text (token :: others)).toList =
        (Pointer.text (place :: rest)).toList ++ more.flatMap fun text => '/' :: text.toList := by
      rw [Pointer.text_nonempty, Pointer.text_nonempty, ← written, List.flatMap_append]
    cases more with
    | nil => exact Or.inl (String.toList_inj.mp (by simpa using whole))
    | cons text later =>
        right
        exact ⟨text.toList ++ later.flatMap fun text => '/' :: text.toList, by rw [whole]; simp⟩

example : isBelow "/steps/1" "/steps/1/name" = true ∧ isBelow "/steps/1" "/steps/10" = false := by
  decide

def outside (place : Pointer) (violations : List Violation) : List Violation :=
  violations.filter fun violation =>
    !isBelow (Pointer.text place) (Pointer.text violation.pointer)

-- What is outside a place, without the verdicts of `oneOf` about the values around the place.
def besides (place : Pointer) (violations : List Violation) : List Violation :=
  (outside place violations).filter fun violation =>
    !(violation.defect.keyword == "oneOf" &&
      isBelow (Pointer.text violation.pointer) (Pointer.text place))

variable (keep : Violation → Bool)

def Alike (left right : List Violation) : Prop :=
  left.filter keep = right.filter keep

variable {keep}

theorem Alike.append {left right others more : List Violation} (first : Alike keep left right)
    (second : Alike keep others more) : Alike keep (left ++ others) (right ++ more) := by
  rw [Alike, List.filter_append, List.filter_append, first, second]

theorem alike_below {place : Pointer} {left right : Json} {violations others : List Violation}
    (dropped : ∀ violation : Violation, place <+: violation.pointer → keep violation = false)
    (report : Reported place left violations) (other : Reported place right others) :
    Alike keep violations others := by
  have nothing : ∀ value report, Reported place value report → report.filter keep = [] := by
    intro value report reported
    obtain ⟨_, reported⟩ := reported
    rw [List.filter_eq_nil_iff]
    intro violation member
    obtain ⟨rest, _, placed, _⟩ := reported.located violation member
    rw [dropped violation ⟨rest, placed.symm⟩]
    exact Bool.false_ne_true
  rw [Alike, nothing left violations report, nothing right others other]

theorem check_items_alike (check : Pointer → Json → List Violation) (pointer : Pointer)
    (front back : List Json) (left right : Json) (place : Nat)
    (inner : Alike keep (check (pointer ++ [.index (place + front.length)]) left)
      (check (pointer ++ [.index (place + front.length)]) right)) :
    Alike keep (checkItems check pointer place (front ++ left :: back))
      (checkItems check pointer place (front ++ right :: back)) := by
  induction front generalizing place with
  | nil => exact inner.append rfl
  | cons item rest ih =>
      apply Alike.append rfl
      apply ih
      rwa [List.length_cons, Nat.add_comm rest.length, ← Nat.add_assoc] at inner

section

variable (front back : Entries Json) (key : String) (left right : Json)

theorem find_other (name : String) (other : name ≠ key) :
    Entries.find? name (front ++ (key, left) :: back) =
      Entries.find? name (front ++ (key, right) :: back) := by
  induction front with
  | nil => simp [other.symm]
  | cons entry rest ih => simp [Entries.find?, ih]

theorem find_same :
    Entries.find? key (front ++ (key, left) :: back) = Entries.find? key (front ++ (key, right) :: back) ∨
      Entries.find? key (front ++ (key, left) :: back) = some left ∧
        Entries.find? key (front ++ (key, right) :: back) = some right := by
  induction front with
  | nil => simp
  | cons entry rest ih =>
      by_cases same : entry.1 = key
      · simp [Entries.find?, same]
      · simpa [Entries.find?, same] using ih

theorem contains_alike (name : String) :
    Entries.contains name (front ++ (key, left) :: back) =
      Entries.contains name (front ++ (key, right) :: back) := by
  simp [Entries.contains]

theorem has_any_alike (names : List String) :
    Condition.hasAny names (front ++ (key, left) :: back) =
      Condition.hasAny names (front ++ (key, right) :: back) := by
  simp only [Condition.hasAny, contains_alike front back key left right]

theorem require_keys_alike (pointer : Pointer) (names : List String) :
    requireKeys pointer names (front ++ (key, left) :: back) =
      requireKeys pointer names (front ++ (key, right) :: back) := by
  simp only [requireKeys, contains_alike front back key left right]

theorem allow_keys_alike (pointer : Pointer) (names : List String) :
    allowKeys pointer names (front ++ (key, left) :: back) =
      allowKeys pointer names (front ++ (key, right) :: back) := by
  simp [allowKeys]

theorem when_present_other (name : String) (check : Json → List Violation) (other : name ≠ key) :
    whenPresent name (front ++ (key, left) :: back) check =
      whenPresent name (front ++ (key, right) :: back) check := by
  rw [whenPresent, whenPresent, find_other front back key left right name other]

theorem when_present_alike (check : Json → List Violation)
    (inner : Alike keep (check left) (check right)) :
    Alike keep (whenPresent key (front ++ (key, left) :: back) check)
      (whenPresent key (front ++ (key, right) :: back) check) := by
  unfold whenPresent
  cases find_same front back key left right with
  | inl same =>
      rw [same]
      rfl
  | inr found =>
      rw [found.1, found.2]
      exact inner

end

theorem join_shapes_kept (pointer : Pointer) (entries : Entries Json) (grouped : List Violation)
    (parts : "conditions" ∈ Entries.keys entries) (dropped : keep ⟨pointer, .noShape⟩ = false) :
    (joinShapes pointer entries (checkComparison pointer entries) grouped).filter keep =
      if Condition.hasAny Condition.comparisonKeys entries then [] else grouped.filter keep := by
  have foreign : checkComparison pointer entries ≠ [] := by
    intro silent
    have only := ((check_comparison_iff pointer entries).mp silent).1 "conditions" parts
    exact absurd only (by decide)
  have combined : Condition.hasAny Condition.combinationKeys entries = true := by
    rw [Condition.hasAny, List.any_eq_true]
    exact ⟨"conditions", by decide, (Entries.contains_member _ _).mpr parts⟩
  cases single : checkComparison pointer entries with
  | nil => exact absurd single foreign
  | cons first others =>
      cases grouped with
      | nil => simp [joinShapes]
      | cons _ _ =>
          cases shaped : Condition.hasAny Condition.comparisonKeys entries <;>
            simp [joinShapes, shaped, combined, violate, dropped, List.filter_cons]

theorem check_some_alike (check : Pointer → Json → List Violation) (pointer : Pointer)
    (front back : List Json) (left right : Json)
    (inner : Alike keep (check (pointer ++ [.index front.length]) left)
      (check (pointer ++ [.index front.length]) right)) :
    Alike keep (checkSome check pointer (array (front ++ left :: back)))
      (checkSome check pointer (array (front ++ right :: back))) := by
  have filled : ∀ item, (front ++ item :: back).isEmpty = false := by simp
  simp only [checkSome, checkArray, filled]
  apply Alike.append rfl
  apply check_items_alike
  rwa [Nat.zero_add]

theorem check_combination_alike (pointer : Pointer) (front back : Entries Json) (left right : Json)
    (inner : Alike keep (checkSome checkCondition (pointer.child "conditions") left)
      (checkSome checkCondition (pointer.child "conditions") right)) :
    Alike keep (checkCombination pointer (front ++ ("conditions", left) :: back))
      (checkCombination pointer (front ++ ("conditions", right) :: back)) := by
  rw [checkCombination, checkCombination, check_parts_present, check_parts_present,
    require_keys_alike front back _ left right, allow_keys_alike front back _ left right,
    when_present_other front back _ left right "match" _ (by decide)]
  exact (Alike.append rfl (when_present_alike front back _ left right _ inner)).append rfl

theorem check_parts_alike (pointer : Pointer) (front back : Entries Json) (left right : Json)
    (verdict : keep ⟨pointer, .noShape⟩ = false)
    (inner : Alike keep (checkSome checkCondition (pointer.child "conditions") left)
      (checkSome checkCondition (pointer.child "conditions") right)) :
    Alike keep (checkCondition pointer (object (front ++ ("conditions", left) :: back)))
      (checkCondition pointer (object (front ++ ("conditions", right) :: back))) := by
  have there : ∀ value : Json, "conditions" ∈ Entries.keys (front ++ ("conditions", value) :: back) := by
    simp [Entries.keys]
  have grouped := check_combination_alike pointer front back left right inner
  rw [Alike, check_condition_object, check_condition_object,
    join_shapes_kept _ _ _ (there left) verdict, join_shapes_kept _ _ _ (there right) verdict,
    has_any_alike front back "conditions" left right, grouped]

theorem check_condition_alike (step : Nat) (more parts : List Nat) (left right : Json)
    (proper : left.wellFormed = true) (otherProper : right.wellFormed = true)
    (differs : DiffersAt (more.flatMap fun part => [.key "conditions", .index part]) left right)
    (below : ∀ violation : Violation,
      conditionPointer step (parts ++ more) <+: violation.pointer → keep violation = false)
    (verdicts : ∀ front back, parts ++ more = front ++ back →
      keep ⟨conditionPointer step front, .noShape⟩ = false) :
    Alike keep (checkCondition (conditionPointer step parts) left)
      (checkCondition (conditionPointer step parts) right) := by
  induction more generalizing parts left right with
  | nil =>
      rw [List.append_nil] at below
      exact alike_below below (check_condition_report step parts left proper)
        (check_condition_report step parts right otherProper)
  | cons part rest ih =>
      rw [List.flatMap_cons] at differs
      cases differs with
      | entry front back _ _ _ _ inside =>
          cases inside with
          | item before after part otherPart _ inside =>
              have deeper : parts ++ before.length :: rest = (parts ++ [before.length]) ++ rest := by simp
              have verdict := verdicts parts (before.length :: rest) rfl
              rw [deeper] at below verdicts
              have inner := ih (parts ++ [before.length]) part otherPart
                (item_well_formed (entry_well_formed proper))
                (item_well_formed (entry_well_formed otherProper)) inside below verdicts
              rw [← condition_pointer_part] at inner
              apply check_parts_alike _ _ _ _ _ verdict
              exact check_some_alike checkCondition _ before after part otherPart inner

theorem check_step_alike (pointer : Pointer) (front back : Entries Json) (left right : Json)
    (inner : Alike keep (checkCondition (pointer.child "when") left)
      (checkCondition (pointer.child "when") right)) :
    Alike keep (checkStep pointer (object (front ++ ("when", left) :: back)))
      (checkStep pointer (object (front ++ ("when", right) :: back))) := by
  have found := find_other front back "when" left right
  have others := when_present_other front back "when" left right
  have texts : requireTexts pointer stepTextKeys (front ++ ("when", left) :: back) =
      requireTexts pointer stepTextKeys (front ++ ("when", right) :: back) := by
    apply List.flatMap_congr
    intro name member
    apply others
    exact fun same => absurd (same ▸ member) (by decide)
  have action : actionOf? (front ++ ("when", left) :: back) =
      actionOf? (front ++ ("when", right) :: back) := by
    rw [actionOf?, actionOf?, Condition.text?, Condition.text?, found "action" (by decide)]
  simp only [checkStep, checkObject]
  rw [require_keys_alike front back "when" left right, allow_keys_alike front back "when" left right,
    others "name" _ (by decide), others "action" _ (by decide), action, texts,
    others "value" _ (by decide), others "timeout" _ (by decide), others "output" _ (by decide)]
  simp only [require_keys_alike front back "when" left right]
  exact Alike.append rfl (when_present_alike front back "when" left right _ inner)

def checkPart : String → Json → List Violation
  | "name" => checkName [.key "name"]
  | "description" => requireText [.key "description"]
  | "input" => checkInput [.key "input"]
  | "constants" => requireKind [.key "constants"] .object
  | "extract" => checkExtract [.key "extract"]
  | "output" => checkOutputs [.key "output"]
  | "steps" => checkSteps [.key "steps"]
  | _ => fun _ => []

theorem check_by_parts (entries : Entries Json) :
    check (object entries) =
      requireKeys [] ["name", "steps"] entries ++ (allowKeys [] Workflow.fieldNames entries ++
        Workflow.fieldNames.flatMap fun key => whenPresent key entries (checkPart key)) := by
  simp [check, checkObject, Workflow.fieldNames, checkPart]

theorem check_alike (front back : Entries Json) (key : String) (left right : Json)
    (inner : Alike keep (checkPart key left) (checkPart key right)) :
    Alike keep (check (object (front ++ (key, left) :: back)))
      (check (object (front ++ (key, right) :: back))) := by
  have each : ∀ names : List String, Alike keep
      (names.flatMap fun name => whenPresent name (front ++ (key, left) :: back) (checkPart name))
      (names.flatMap fun name => whenPresent name (front ++ (key, right) :: back) (checkPart name)) := by
    intro names
    induction names with
    | nil => rfl
    | cons name rest ih =>
        have first : Alike keep (whenPresent name (front ++ (key, left) :: back) (checkPart name))
            (whenPresent name (front ++ (key, right) :: back) (checkPart name)) := by
          by_cases same : name = key
          · subst same
            exact when_present_alike front back name left right _ inner
          · rw [when_present_other front back key left right name _ same]
            rfl
        exact first.append ih
  rw [check_by_parts, check_by_parts, require_keys_alike front back key left right,
    allow_keys_alike front back key left right]
  exact Alike.append rfl (Alike.append rfl (each _))

theorem check_table_alike (pointer : Pointer) (check : Pointer → Json → List Violation) (name : String)
    (left right : Json) (proper : left.wellFormed = true) (otherProper : right.wellFormed = true)
    (reported : ∀ value, value.wellFormed = true →
      Reported (pointer.child name) value (check (pointer.child name) value))
    (differs : DiffersAt [.key name] left right)
    (below : ∀ violation : Violation, pointer.child name <+: violation.pointer →
      keep violation = false) :
    Alike keep (checkObject pointer (checkValues check pointer) left)
      (checkObject pointer (checkValues check pointer) right) := by
  cases differs with
  | entry front back _ value other _ _ =>
      have report := reported value (entry_well_formed proper)
      have again := reported other (entry_well_formed otherProper)
      simp only [checkObject, checkValues, List.flatMap_append, List.flatMap_cons]
      exact Alike.append rfl ((alike_below below report again).append rfl)
  | added front back _ other =>
      have none : Reported (pointer.child name) null [] := ⟨[], Report.nil⟩
      have report := reported other (entry_well_formed otherProper)
      simp only [checkObject, checkValues, List.flatMap_append, List.flatMap_cons]
      exact Alike.append rfl ((alike_below below none report).append rfl)

theorem check_extract_alike (place : Nat) (left right : Json) (proper : left.wellFormed = true)
    (otherProper : right.wellFormed = true) (differs : DiffersAt [.index place] left right)
    (below : ∀ violation : Violation, [.key "extract", .index place] <+: violation.pointer →
      keep violation = false) :
    Alike keep (checkExtract [.key "extract"] left) (checkExtract [.key "extract"] right) := by
  cases differs with
  | item front back value other _ _ =>
      have report := check_extraction_report front.length value (item_well_formed proper)
      have again := check_extraction_report front.length other (item_well_formed otherProper)
      apply check_items_alike
      rw [Nat.zero_add]
      exact alike_below below report again

theorem check_steps_alike (place : Nat) (rest : Pointer) (left right : Json)
    (proper : left.wellFormed = true) (otherProper : right.wellFormed = true)
    (differs : DiffersAt (.index place :: rest) left right)
    (inner : ∀ step other, step.wellFormed = true → other.wellFormed = true →
      DiffersAt rest step other → Alike keep (checkStep [.key "steps", .index place] step)
        (checkStep [.key "steps", .index place] other)) :
    Alike keep (checkSteps [.key "steps"] left) (checkSteps [.key "steps"] right) := by
  cases differs with
  | item front back step other _ inside =>
      apply check_some_alike checkStep
      exact inner step other (item_well_formed proper) (item_well_formed otherProper) inside

theorem document_alike (key : String) (token : Token) (rest : Pointer) (document other : Json)
    (proper : document.wellFormed = true) (otherProper : other.wellFormed = true)
    (differs : DiffersAt (.key key :: token :: rest) document other)
    (inner : ∀ left right, left.wellFormed = true → right.wellFormed = true →
      DiffersAt (token :: rest) left right → Alike keep (checkPart key left) (checkPart key right)) :
    Alike keep (check document) (check other) := by
  cases differs with
  | entry front back _ left right _ inside =>
      apply check_alike
      exact inner left right (entry_well_formed proper) (entry_well_formed otherProper) inside

theorem part_below (place pointer : Pointer) (nonempty : place ≠ []) (first : place <+: pointer) :
    isBelow (Pointer.text place) (Pointer.text pointer) = true := by
  obtain ⟨more, rfl⟩ := first
  obtain ⟨token, rest, rfl⟩ := List.exists_cons_of_ne_nil nonempty
  apply (below_iff token rest token (rest ++ more)).mpr
  exact ⟨more.map Token.text, by simp⟩

theorem part_dropped (token : Token) (rest : Pointer) (violation : Violation)
    (first : token :: rest <+: violation.pointer) :
    (!isBelow (Pointer.text (token :: rest)) (Pointer.text violation.pointer)) = false := by
  rw [part_below (token :: rest) _ (List.cons_ne_nil token rest) first, Bool.not_true]

theorem part_independent (place : Pointer) (part : IsPart place) (document other : Json)
    (proper : document.wellFormed = true) (otherProper : other.wellFormed = true)
    (differs : DiffersAt place document other) :
    outside place (check document) = outside place (check other) := by
  cases part with
  | step place =>
      apply document_alike "steps" _ _ document other proper otherProper differs
      intro left right leftProper rightProper inside
      apply check_steps_alike place [] left right leftProper rightProper inside
      intro step otherStep stepProper otherStepProper _
      exact alike_below (part_dropped _ _) (check_step_report place step stepProper)
        (check_step_report place otherStep otherStepProper)
  | parameter name =>
      apply document_alike "input" _ _ document other proper otherProper differs
      intro left right leftProper rightProper inside
      apply check_table_alike [.key "input"] checkParameter name left right leftProper rightProper
        (check_parameter_report name) inside
      exact part_dropped _ _
  | extraction place =>
      apply document_alike "extract" _ _ document other proper otherProper differs
      intro left right leftProper rightProper inside
      apply check_extract_alike place left right leftProper rightProper inside
      exact part_dropped _ _
  | output name =>
      apply document_alike "output" _ _ document other proper otherProper differs
      intro left right leftProper rightProper inside
      apply check_table_alike [.key "output"] checkOutput name left right leftProper rightProper
        (check_output_report name) inside
      exact part_dropped _ _

theorem condition_independent (step : Nat) (parts : List Nat) (part : Nat) (document other : Json)
    (proper : document.wellFormed = true) (otherProper : other.wellFormed = true)
    (differs : DiffersAt (conditionPointer step (parts ++ [part])) document other) :
    besides (conditionPointer step (parts ++ [part])) (check document) =
      besides (conditionPointer step (parts ++ [part])) (check other) := by
  obtain ⟨first, others, whole⟩ : ∃ first others, parts ++ [part] = first :: others := by
    cases parts <;> simp
  rw [whole] at differs ⊢
  rw [besides, besides, outside, outside, List.filter_filter, List.filter_filter]
  apply document_alike "steps" _ _ document other proper otherProper differs
  intro left right leftProper rightProper inside
  apply check_steps_alike step _ left right leftProper rightProper inside
  intro authored otherAuthored authoredProper otherAuthoredProper within
  cases within with
  | entry front back _ condition otherCondition _ within =>
      apply check_step_alike
      apply check_condition_alike step (first :: others) [] condition otherCondition
        (entry_well_formed authoredProper) (entry_well_formed otherAuthoredProper) within
      · intro violation below
        rw [part_below (conditionPointer step (first :: others)) _ (List.cons_ne_nil _ _) below,
          Bool.not_true, Bool.and_false]
      · intro front back cut
        have around : conditionPointer step front <+: conditionPointer step (first :: others) := by
          rw [List.nil_append] at cut
          exact ⟨back.flatMap fun part => [.key "conditions", .index part], by
            simp [conditionPointer, cut]⟩
        rw [part_below (conditionPointer step front) _ (List.cons_ne_nil _ _) around]
        rfl

-- For a part of a condition the verdicts on the conditions around it are left out, as these fit or do not
-- fit with the part.
theorem violations_independent (document other : Json) (proper : document.wellFormed = true)
    (otherProper : other.wellFormed = true) :
    (∀ place, IsPart place → DiffersAt place document other →
      outside place (check document) = outside place (check other)) ∧
    (∀ step parts part, DiffersAt (conditionPointer step (parts ++ [part])) document other →
      besides (conditionPointer step (parts ++ [part])) (check document) =
        besides (conditionPointer step (parts ++ [part])) (check other)) := by
  constructor
  · intro place part differs
    exact part_independent place part document other proper otherProper differs
  · intro step parts part differs
    exact condition_independent step parts part document other proper otherProper differs

def guarded (field : String) : Json :=
  let comparison (field : String) : Json :=
    object [("field", string field), ("op", string "=="), ("value", integer 1)]
  object [("name", string "guarded"), ("steps", array [
    object [("name", string "Wait"), ("action", string "wait"), ("selector", string "p"),
      ("when", object [("conditions", array [comparison field, comparison "input"]),
        ("match", string "all")])],
    object [("action", string "wait"), ("selector", string "p")]])]

theorem violations_independent_guarded :
    (guarded "input.age").wellFormed = true ∧ (guarded "age").wellFormed = true ∧
    DiffersAt [.key "steps", .index 0] (guarded "input.age") (guarded "age") ∧
    DiffersAt (conditionPointer 0 [0]) (guarded "input.age") (guarded "age") ∧
    outside [.key "steps", .index 0] (check (guarded "input.age")) =
      outside [.key "steps", .index 0] (check (guarded "age")) ∧
    besides (conditionPointer 0 [0]) (check (guarded "input.age")) =
      besides (conditionPointer 0 [0]) (check (guarded "age")) := by
  have proper : (guarded "input.age").wellFormed = true := by decide
  have otherProper : (guarded "age").wellFormed = true := by decide
  have differs : DiffersAt [.key "steps", .index 0] (guarded "input.age") (guarded "age") :=
    .entry [_] [] "steps" _ _ _ (.item [] [_] _ _ _ (.here _ _))
  have inside : DiffersAt (conditionPointer 0 [0]) (guarded "input.age") (guarded "age") :=
    .entry [_] [] "steps" _ _ _ (.item [] [_] _ _ _ (.entry [_, _, _] [] "when" _ _ _
      (.entry [] [_] "conditions" _ _ _ (.item [] [_] _ _ _ (.here _ _)))))
  obtain ⟨parts, conditions⟩ := violations_independent _ _ proper otherProper
  exact ⟨proper, otherProper, differs, inside, parts _ (.step 0) differs, conditions 0 [] 0 inside⟩

end BrowserFlow.Authoring
