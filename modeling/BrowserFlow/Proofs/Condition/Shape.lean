import BrowserFlow.Proofs.Display.Guard
/-! Shapes of conditions. Whatever JSON an author writes for a condition, it compiles exactly when it is a
comparison or a combination of conditions that do, and never a mixture of both. -/
set_option autoImplicit false

namespace BrowserFlow

open Json Authoring

theorem Reference.read_iff (raw : String) (reference : Reference) :
    read? raw = some reference ↔ reference.Proper ∧ Text.trim raw = reference.text := by
  constructor
  · intro read
    have proper := read_proper raw reference read
    refine ⟨proper, ?_⟩
    cases cut : Text.split '.' (Text.trim raw) with
    | nil => simp [read?, cut] at read
    | cons first path =>
        obtain ⟨_, _, written⟩ := (Text.split_joined_iff '.' "." _ _ rfl).mp cut
        cases known : Scope.ofName? first with
        | none => simp [read?, cut, known] at read
        | some scope =>
            simp only [read?, cut, known] at read
            split at read
            · cases read
            · cases read
              obtain ⟨name, segments, rfl⟩ := List.exists_cons_of_ne_nil proper.named
              rw [written, (scope_known_iff first scope).mp known]
              rfl
  · rintro ⟨proper, written⟩
    have cut : Text.split '.' (Text.trim raw) = reference.scope.name :: reference.path := by
      rw [written, Text.split, text_cut reference proper]
      simp [Function.comp_def]
    have known := (scope_known_iff reference.scope.name reference.scope).mpr rfl
    have segments : reference.path.all isSegment = true := List.all_eq_true.mpr proper.segments
    have named : reference.path.isEmpty = false := by simpa using proper.named
    simp [read?, cut, known, segments, named]

namespace Condition

theorem text_some_iff (key text : String) (entries : Entries Json) :
    text? key entries = some text ↔ Entries.find? key entries = some (string text) := by
  unfold text?
  cases Entries.find? key entries with
  | none => simp
  | some value => cases value <;> simp [string?]

theorem elim_ok_iff {α : Type} (given : Option α) (fault : Fault) (value : α) :
    given.elim (.error fault) Except.ok = .ok value ↔ given = some value := by
  cases given <;> simp

theorem operator_known_iff (word : String) :
    (∃ comparison, Comparison.ofWord? word = some comparison) ↔
      word ∈ ["==", "!=", ">", "<", ">=", "<="] := by
  constructor
  · rintro ⟨comparison, known⟩
    exact Entries.key_of_found word comparison Comparison.named known
  · intro listed
    obtain ⟨comparison, known, _⟩ := operator_read word listed
    exact ⟨comparison, known⟩

theorem combination_known_iff (entries : Entries Json) :
    (∃ combination, combination? entries = some combination) ↔
      Must "match" (IsWordOf ["all", "any"]) entries := by
  simp only [combination?, Option.bind_eq_some_iff, text_some_iff]
  constructor
  · rintro ⟨combination, word, found, known⟩
    exact ⟨_, found, word, Entries.key_of_found word combination Combination.named known, rfl⟩
  · rintro ⟨_, found, word, listed, rfl⟩
    simp only [List.mem_cons, List.not_mem_nil, or_false] at listed
    rcases listed with rfl | rfl
    · exact ⟨.all, "all", found, rfl⟩
    · exact ⟨.any, "any", found, rfl⟩

def IsReferenceText (value : Json) : Prop :=
  ∃ (raw : String) (reference : Reference), value = string raw ∧ reference.Proper ∧
    Text.trim raw = reference.text

def IsOperator (value : Json) : Prop :=
  IsWordOf ["==", "!=", ">", "<", ">=", "<="] value

theorem comparison_compiled_iff (entries : Entries Json) :
    (∃ guard, comparison entries = .ok guard) ↔
      Must "field" IsReferenceText entries ∧ Must "op" IsOperator entries ∧
        "value" ∈ Entries.keys entries := by
  simp only [comparison, bind_ok_iff, elim_ok_iff, text_some_iff]
  constructor
  · rintro ⟨_, raw, fieldFound, field, read, word, opFound, operator, known, value, valueFound, _⟩
    refine ⟨⟨_, fieldFound, raw, field, rfl, (field.read_iff raw).mp read⟩, ⟨_, opFound, word, ?_, rfl⟩,
      Entries.key_of_found _ _ _ valueFound⟩
    exact (operator_known_iff word).mp ⟨operator, known⟩
  · rintro ⟨⟨_, fieldFound, raw, field, rfl, read⟩, ⟨_, opFound, word, listed, rfl⟩, there⟩
    obtain ⟨operator, known⟩ := (operator_known_iff word).mpr listed
    obtain ⟨value, valueFound⟩ :=
      (Entries.contains_iff _ _).mp ((Entries.contains_member "value" entries).mpr there)
    exact ⟨_, raw, fieldFound, field, (field.read_iff raw).mpr read, word, opFound, operator, known, value,
      valueFound, rfl⟩

theorem parts_compiled_iff (conditions : List Json) :
    (∃ guards, compileParts conditions = .ok guards) ↔
      ∀ condition ∈ conditions, ∃ guard, compile condition = .ok guard := by
  induction conditions with
  | nil => exact ⟨fun _ => by simp, fun _ => ⟨[], rfl⟩⟩
  | cons condition rest ih =>
      rw [List.forall_mem_cons, ← ih, compileParts]
      cases compile condition with
      | error fault => simp
      | ok guard => simp [map_ok_iff]

theorem group_compiled_iff (entries : Entries Json) :
    (∃ guard, compileGroup (combination? entries) entries = .ok guard) ↔
      ∃ parts, Entries.find? "conditions" entries = some (array parts) ∧ parts ≠ [] ∧
        (∀ part ∈ parts, ∃ guard, compile part = .ok guard) ∧
        Must "match" (IsWordOf ["all", "any"]) entries := by
  constructor
  · rintro ⟨guard, compiled⟩
    obtain ⟨mode, parts, guards, known, found, nonempty, each, _⟩ := group_found _ _ _ compiled
    exact ⟨parts, found, nonempty, (parts_compiled_iff parts).mp ⟨guards, each⟩,
      (combination_known_iff entries).mp ⟨mode, known⟩⟩
  · rintro ⟨parts, found, nonempty, each, mode⟩
    obtain ⟨combination, known⟩ := (combination_known_iff entries).mpr mode
    obtain ⟨guards, compiled⟩ := (parts_compiled_iff parts).mpr each
    rw [known]
    exact ⟨_, group_compiled combination entries parts found nonempty guards compiled⟩

def Lacks (names : List String) (entries : Entries Json) : Prop :=
  ∀ name ∈ names, name ∉ Entries.keys entries

theorem lacks_iff (names : List String) (entries : Entries Json) :
    Lacks names entries ↔ hasAny names entries = false := by
  rw [Bool.eq_false_iff, Ne, has_any_iff]
  simp [Lacks]

inductive WellFormed : Json → Prop where
  | comparison (entries : Entries Json) (alone : Lacks ["conditions", "match"] entries)
      (field : Must "field" IsReferenceText entries) (op : Must "op" IsOperator entries)
      (value : "value" ∈ Entries.keys entries) : WellFormed (object entries)
  | combination (entries : Entries Json) (parts : List Json)
      (alone : Lacks ["field", "op", "value"] entries)
      (found : Entries.find? "conditions" entries = some (array parts)) (nonempty : parts ≠ [])
      (each : ∀ part ∈ parts, WellFormed part)
      (mode : Must "match" (IsWordOf ["all", "any"]) entries) : WellFormed (object entries)

-- Either shape has keys of its own, so that an object that lacks those of the other one is told by them.
theorem object_compiled_iff (entries : Entries Json) (guard : Guard) :
    compile (object entries) = .ok guard ↔
      (Lacks combinationKeys entries ∧ comparison entries = .ok guard) ∨
        (Lacks comparisonKeys entries ∧ compileGroup (combination? entries) entries = .ok guard) := by
  have unlike : hasAny comparisonKeys entries = false → comparison entries ≠ .ok guard := by
    intro without compiled
    obtain ⟨_, _, there⟩ := (comparison_compiled_iff entries).mp ⟨guard, compiled⟩
    exact (lacks_iff _ _).mpr without "value" (by decide) there
  have ungrouped : hasAny combinationKeys entries = false →
      compileGroup (combination? entries) entries ≠ .ok guard := by
    intro without compiled
    obtain ⟨_, found, _⟩ := (group_compiled_iff entries).mp ⟨guard, compiled⟩
    exact (lacks_iff _ _).mpr without "conditions" (by decide) (Entries.key_of_found _ _ _ found)
  rw [lacks_iff, lacks_iff, compile]
  cases single : hasAny comparisonKeys entries with
  | false =>
      cases grouped : hasAny combinationKeys entries with
      | false => simp [unlike single, ungrouped grouped]
      | true => simp
  | true =>
      cases hasAny combinationKeys entries with
      | false => simp
      | true => simp

theorem compiled_iff (condition : Json) :
    (∃ guard, compile condition = .ok guard) ↔ WellFormed condition := by
  induction condition using condition_induction with
  | step condition ih =>
      cases condition with
      | object entries =>
          simp only [object_compiled_iff, exists_or, exists_and_left, comparison_compiled_iff,
            group_compiled_iff]
          constructor
          · rintro (⟨alone, field, op, value⟩ | ⟨alone, parts, found, nonempty, each, mode⟩)
            · exact .comparison entries alone field op value
            · refine .combination entries parts alone found nonempty (fun part member => ?_) mode
              exact (ih entries parts rfl found part member).mp (each part member)
          · intro shaped
            cases shaped with
            | comparison _ alone field op value => exact .inl ⟨alone, field, op, value⟩
            | combination _ parts alone found nonempty each mode =>
                refine .inr ⟨alone, parts, found, nonempty, fun part member => ?_, mode⟩
                exact (ih entries parts rfl found part member).mpr (each part member)
      | _ => exact ⟨nofun, nofun⟩

end Condition

end BrowserFlow
