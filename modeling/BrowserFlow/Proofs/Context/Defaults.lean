import BrowserFlow.Context
import BrowserFlow.Proofs.Program.Settled
/-! Defaults of inputs, and the inputs that are missing after they were filled in. A default stands in for
an input that is not there at all. An input that was given as null keeps it, and so it is missing if it is
required, whatever its default. -/
set_option autoImplicit false

namespace BrowserFlow

open Json

theorem Entries.uncontained_iff {α : Type} (key : String) (entries : Entries α) :
    contains key entries = false ↔ find? key entries = none := by
  rw [← Bool.not_eq_true, contains_iff]
  cases find? key entries <;> simp

namespace Context

variable (context : Context)

-- What a declaration adds to a context: its default, when the context does not hold the input.
def added? (entry : String × Parameter) : Option (String × Json) :=
  if Entries.contains entry.1 context.input then none
  else entry.2.default.map fun value => (entry.1, value)

def leftMissing (entry : String × Parameter) : Bool :=
  entry.2.required &&
    match Entries.find? entry.1 context.input with
    | some value => value.isNull
    | none => entry.2.default.isNone

theorem added_iff (entry : String × Parameter) (name : String) (value : Json) :
    context.added? entry = some (name, value) ↔
      Entries.find? entry.1 context.input = none ∧ entry.1 = name ∧
        entry.2.default = some value := by
  rw [added?, ← Entries.uncontained_iff]
  cases there : Entries.contains entry.1 context.input with
  | true => simp
  | false => simp [and_comm]

theorem default_applied (name : String) (parameter : Parameter) :
    context.applyDefault name parameter =
      { context with input := context.input ++ (context.added? (name, parameter)).toList } := by
  cases default : parameter.default with
  | none => simp [applyDefault, added?, default]
  | some value =>
      by_cases there : Entries.contains name context.input = true
      · simp [applyDefault, added?, there, default]
      · have absent : name ∉ Entries.keys context.input := fun member =>
          there ((Entries.contains_member _ _).mpr member)
        simp [applyDefault, added?, there, default, set, Entries.insert_absent _ _ _ absent]

theorem added_unmoved (before entry : String × Parameter) (different : before.1 ≠ entry.1) :
    (context.applyDefault before.1 before.2).added? entry = context.added? entry := by
  have unmoved : Entries.contains entry.1 (context.added? before).toList = false := by
    cases added : context.added? before with
    | none => rfl
    | some pair =>
        obtain ⟨_, same, _⟩ := (context.added_iff before pair.1 pair.2).mp added
        simpa [Entries.contains, ← same] using different
  have same : Entries.contains entry.1 (context.input ++ (context.added? before).toList) =
      Entries.contains entry.1 context.input := by
    rw [Entries.contains, List.any_append]
    exact (congrArg _ unmoved).trans (Bool.or_false _)
  rw [default_applied, added?]
  dsimp only
  rw [same, ← added?]

theorem defaults_appended (parameters : Entries Parameter)
    (distinct : (Entries.keys parameters).Nodup) :
    context.applyDefaults parameters =
      { context with input := context.input ++ parameters.filterMap context.added? } := by
  induction parameters generalizing context with
  | nil => simp [applyDefaults]
  | cons entry rest ih =>
      rcases entry with ⟨name, parameter⟩
      rw [Entries.keys_cons, List.nodup_cons] at distinct
      have later : rest.filterMap (context.applyDefault name parameter).added? =
          rest.filterMap context.added? := by
        refine List.filterMap_congr fun entry member => ?_
        refine context.added_unmoved (name, parameter) entry fun same => distinct.1 ?_
        exact List.mem_map.mpr ⟨entry, member, same.symm⟩
      have next := ih (context.applyDefault name parameter) distinct.2
      rw [later, default_applied] at next
      rw [applyDefaults, List.foldl_cons, ← applyDefaults, default_applied, next]
      cases added : context.added? (name, parameter) with
      | none => simp [added]
      | some pair => simp [added]

section

variable (parameters : Entries Parameter)

theorem default_found (distinct : (Entries.keys parameters).Nodup) (entry : String × Parameter)
    (declared : entry ∈ parameters) (absent : Entries.find? entry.1 context.input = none) :
    Entries.find? entry.1 (parameters.filterMap context.added?) = entry.2.default := by
  have only : ∀ value, Entries.find? entry.1 (parameters.filterMap context.added?) = some value →
      entry.2.default = some value := by
    intro value found
    obtain ⟨other, listed, added⟩ := List.mem_filterMap.mp (Entries.find_member _ _ _ found)
    obtain ⟨_, named, default⟩ := (context.added_iff other _ _).mp added
    have here := Entries.find_distinct parameters distinct other.1 other.2 listed
    rw [named, Entries.find_distinct parameters distinct entry.1 entry.2 declared,
      Option.some.injEq] at here
    rwa [here]
  cases default : entry.2.default with
  | none =>
      refine Option.eq_none_iff_forall_ne_some.mpr fun value found => ?_
      cases default.symm.trans (only value found)
  | some value =>
      have listed : (entry.1, value) ∈ parameters.filterMap context.added? :=
        List.mem_filterMap.mpr ⟨entry, declared, (context.added_iff _ _ _).mpr ⟨absent, rfl, default⟩⟩
      obtain ⟨found, there⟩ := (Entries.contains_iff _ _).mp
        ((Entries.contains_member _ _).mpr (List.mem_map.mpr ⟨_, listed, rfl⟩))
      exact there.trans ((only found there).symm.trans default)

theorem filled_found (distinct : (Entries.keys parameters).Nodup) (entry : String × Parameter)
    (declared : entry ∈ parameters) :
    Entries.find? entry.1 (context.applyDefaults parameters).input =
      (Entries.find? entry.1 context.input).or entry.2.default := by
  rw [defaults_appended context parameters distinct, Entries.find_append]
  cases found : Entries.find? entry.1 context.input with
  | some value => rfl
  | none => rw [default_found context parameters distinct entry declared found]

theorem filled_again (distinct : (Entries.keys parameters).Nodup) :
    (context.applyDefaults parameters).applyDefaults parameters =
      context.applyDefaults parameters := by
  have nothing : parameters.filterMap (context.applyDefaults parameters).added? = [] := by
    refine List.filterMap_eq_nil_iff.mpr fun entry declared => ?_
    refine Option.eq_none_iff_forall_ne_some.mpr fun pair added => ?_
    obtain ⟨absent, _, default⟩ := (added_iff _ entry pair.1 pair.2).mp added
    rw [context.filled_found parameters distinct entry declared, default,
      Option.or_eq_none_iff] at absent
    cases absent.2
  rw [defaults_appended _ parameters distinct, nothing, List.append_nil]

theorem left_missing_eq (table : Entries.Table Parameter.Settled parameters)
    (entry : String × Parameter) (declared : entry ∈ parameters) :
    (entry.2.required && !(context.applyDefaults parameters).provides entry.1) =
      context.leftMissing entry := by
  rw [leftMissing, provides, context.filled_found parameters table.1 entry declared]
  cases found : Entries.find? entry.1 context.input with
  | some value => simp
  | none =>
      cases default : entry.2.default with
      | none => simp
      | some value => simp [((table.2 entry declared).default value default).2]

theorem left_missing_given (entry : String × Parameter) (left : context.leftMissing entry = true)
    (given : entry.2.default.isSome = true) : Entries.find? entry.1 context.input = some null := by
  have empty := (Bool.and_eq_true_iff.mp left).2
  cases found : Entries.find? entry.1 context.input with
  | none =>
      rw [found, Option.isNone_iff_eq_none] at empty
      rw [empty] at given
      cases given
  | some value =>
      rw [found] at empty
      cases value with
      | null => rfl
      | _ => cases empty

structure Filled : Prop where
  appended : context.applyDefaults parameters =
    { context with input := context.input ++ parameters.filterMap context.added? }
  again : (context.applyDefaults parameters).applyDefaults parameters =
    context.applyDefaults parameters
  kept : ∀ name value, Entries.find? name context.input = some value →
    Entries.find? name (context.applyDefaults parameters).input = some value
  missing : (context.applyDefaults parameters).missingInputs parameters =
    (parameters.filter context.leftMissing).map Prod.fst
  excused : ∀ entry ∈ parameters, entry.2.default.isSome = true →
    entry.1 ∈ (context.applyDefaults parameters).missingInputs parameters →
      Entries.find? entry.1 context.input = some null

theorem defaults_filled (source : Source)
    (decoded : decodeTable Parameter.decode source = .ok parameters) :
    context.Filled parameters := by
  have table := table_yields _ _ parameter_yields source parameters decoded
  have appended := defaults_appended context parameters table.1
  have missing : (context.applyDefaults parameters).missingInputs parameters =
      (parameters.filter context.leftMissing).map Prod.fst :=
    congrArg _ (List.filter_congr (context.left_missing_eq parameters table))
  refine ⟨appended, context.filled_again parameters table.1, fun name value found => ?_, missing,
    fun entry declared given listed => ?_⟩
  · rw [appended, Entries.find_append, found, Option.some_or]
  · rw [missing] at listed
    obtain ⟨other, left, same⟩ := List.mem_map.mp listed
    obtain ⟨otherDeclared, left⟩ := List.mem_filter.mp left
    have there := Entries.find_distinct parameters table.1 other.1 other.2 otherDeclared
    rw [same, Entries.find_distinct parameters table.1 entry.1 entry.2 declared,
      Option.some.injEq] at there
    exact context.left_missing_given entry (Prod.ext same there.symm ▸ left) given

end

def orderDeclarations : Json :=
  object [("keyword", object [("required", bool true), ("default", string "desk")]),
    ("receipt", object [("required", bool true)]), ("color", object [("default", string "red")])]

def orderParameters : Entries Parameter :=
  [("keyword", ⟨none, true, some (string "desk"), none, none⟩),
    ("receipt", ⟨none, true, none, none, none⟩),
    ("color", ⟨none, false, some (string "red"), none, none⟩)]

theorem order_defaults_filled :
    decodeTable Parameter.decode (.given orderDeclarations) = .ok orderParameters ∧
      Filled ⟨[], [], [("color", string "blue"), ("receipt", null)], 0⟩ orderParameters :=
  ⟨by rfl, defaults_filled _ orderParameters (.given orderDeclarations) (by rfl)⟩

theorem null_input_missing :
    ¬ ∀ (context : Context) (source : Source) (parameters : Entries Parameter),
      decodeTable Parameter.decode source = .ok parameters →
        (context.applyDefaults parameters).missingInputs parameters =
          (parameters.filter fun entry => entry.2.required && entry.2.default.isNone &&
            !context.provides entry.1).map Prod.fst := by
  intro all
  have listed := all ⟨[], [], [("keyword", null), ("receipt", string "17")], 0⟩
    (.given orderDeclarations) orderParameters (by rfl)
  revert listed
  decide

end Context

end BrowserFlow
