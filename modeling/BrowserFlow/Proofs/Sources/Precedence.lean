import BrowserFlow.Proofs.Json.Reading
import BrowserFlow.Proofs.Yaml.Document
import BrowserFlow.Sources
/-! Which source a value of a context comes from. Each source either overrides the values that are there or
gives way to them; a context that is put together holds at each key what the first source in this order says
of it. -/
set_option autoImplicit false

namespace BrowserFlow

open Json

namespace Entries

variable {α β : Type}

theorem find_some_first (entries : Entries α) (key : String) :
    entries.findSome? (fun entry => if entry.1 = key then some entry.2 else none) =
      find? key entries := by
  induction entries with
  | nil => rfl
  | cons entry rest ih =>
      rcases entry with ⟨name, value⟩
      by_cases same : name = key
      · simp [find?, same]
      · simpa [find?, same] using ih

theorem find_some_distinct (entries items : Entries α) (distinct : (keys entries).Nodup)
    (same : ∀ entry, entry ∈ items ↔ entry ∈ entries) (f : α → Option β) (key : String) :
    items.findSome? (fun entry => if entry.1 = key then f entry.2 else none) =
      (find? key entries).bind f := by
  -- All entries at the key hold the value that is found there.
  have only : ∀ entry ∈ items, entry.1 = key → find? key entries = some entry.2 := by
    rintro ⟨name, value⟩ member rfl
    exact find_distinct entries distinct name value ((same _).mp member)
  cases found : items.findSome? (fun entry => if entry.1 = key then f entry.2 else none) with
  | some given =>
      obtain ⟨entry, member, made⟩ := List.exists_of_findSome?_eq_some found
      split at made
      · rename_i here
        rw [only entry member here]
        exact made.symm
      · cases made
  | none =>
      rw [List.findSome?_eq_none_iff] at found
      cases there : find? key entries with
      | none => rfl
      | some value =>
          have absent := found (key, value) ((same _).mpr (find_member key value entries there))
          rw [if_pos rfl] at absent
          exact absent.symm

end Entries

-- What a source says of the keys of the scopes: a value, or why its text is none.
abbrev Offer := Scope → String → Option (Except InputError Json)

namespace Context

def valueAt (context : Context) (scope : Scope) (key : String) : Option Json :=
  Entries.find? key (context.scope scope)

theorem set_value_at (context : Context) (scope other : Scope) (key name : String) (value : Json) :
    (context.set scope key value).valueAt other name =
      if scope = other ∧ key = name then some value else context.valueAt other name := by
  cases scope <;> cases other <;>
    simp [valueAt, Context.set, Context.scope, Entries.insert_find]

theorem set_start (context : Context) (scope : Scope) (key : String) (value : Json) :
    (context.set scope key value).start = context.start := by
  cases scope <;> rfl

structure Overrides (offer : Offer) (before after : Context) : Prop where
  start : after.start = before.start
  values : ∀ scope key, (after.valueAt scope key).map Except.ok =
    (offer scope key).or ((before.valueAt scope key).map Except.ok)

structure GivesWay (offer : Scope → String → Option Json) (before after : Context) : Prop where
  start : after.start = before.start
  values : ∀ scope key, after.valueAt scope key =
    (before.valueAt scope key).or (offer scope key)

theorem GivesWay.restated {offer other : Scope → String → Option Json} {before after : Context}
    (gives : GivesWay offer before after) (same : ∀ scope key, offer scope key = other scope key) :
    GivesWay other before after :=
  ⟨gives.start, fun scope key => by rw [gives.values, same]⟩

theorem Overrides.restated {offer other : Offer} {before after : Context}
    (overrides : Overrides offer before after) (same : ∀ scope key, offer scope key = other scope key) :
    Overrides other before after :=
  ⟨overrides.start, fun scope key => by rw [overrides.values, same]⟩

theorem Overrides.next {earlier later : Offer} {before middle after : Context}
    (first : Overrides earlier before middle) (second : Overrides later middle after) :
    Overrides (fun scope key => (later scope key).or (earlier scope key)) before after :=
  ⟨second.start.trans first.start, fun scope key => by
    rw [second.values, first.values, Option.or_assoc]⟩

theorem overrides_nothing (context : Context) : Overrides (fun _ _ => none) context context :=
  ⟨rfl, fun _ _ => rfl⟩

theorem overrides_set (context : Context) (scope : Scope) (key : String) (value : Json) :
    Overrides (fun other name => if scope = other ∧ key = name then some (.ok value) else none) context
      (context.set scope key value) := by
  refine ⟨context.set_start scope key value, fun other name => ?_⟩
  rw [set_value_at]
  split
  · rfl
  · rfl

theorem overrides_extend_input (context : Context) (entries : Entries Json)
    (distinct : (Entries.keys entries).Nodup) :
    Overrides
      (fun scope key => if scope = .input then (Entries.find? key entries).map .ok else none)
      context { context with input := context.input.extend entries } := by
  refine ⟨rfl, fun scope key => ?_⟩
  cases scope with
  | input =>
      simp only [valueAt, Context.scope, if_true]
      rw [Entries.extend_find key context.input entries distinct, Option.map_or]
  | extract => rfl
  | constants => rfl

theorem overrides_extend_extract (context : Context) (entries : Entries Json)
    (distinct : (Entries.keys entries).Nodup) :
    Overrides
      (fun scope key => if scope = .extract then (Entries.find? key entries).map .ok else none)
      context { context with extract := context.extract.extend entries } := by
  refine ⟨rfl, fun scope key => ?_⟩
  cases scope with
  | extract =>
      simp only [valueAt, Context.scope, if_true]
      rw [Entries.extend_find key context.extract entries distinct, Option.map_or]
  | input => rfl
  | constants => rfl

theorem gives_way_set (context : Context) (scope : Scope) (key : String) (value : Json) :
    GivesWay (fun other name => if scope = other ∧ key = name then some value else none) context
      (if Entries.contains key (context.scope scope) then context
        else context.set scope key value) := by
  by_cases there : Entries.contains key (context.scope scope) = true
  · rw [if_pos there]
    refine ⟨rfl, fun other name => ?_⟩
    split
    · rename_i here
      obtain ⟨old, found⟩ := (Entries.contains_iff _ _).mp there
      rw [← here.1, ← here.2, valueAt, found, Option.some_or]
    · rw [Option.or_none]
  · rw [if_neg there]
    refine ⟨context.set_start scope key value, fun other name => ?_⟩
    rw [set_value_at]
    split
    · rename_i here
      have absent : context.valueAt other name = none := by
        rw [← here.1, ← here.2, valueAt, ← Option.not_isSome_iff_eq_none]
        exact fun found => there ((Entries.contains_iff _ _).mpr (Option.isSome_iff_exists.mp found))
      rw [absent, Option.none_or]
    · rw [Option.or_none]

variable {α : Type}

theorem add_all_overrides (add : α → Context → Except Failure Context) (offer : α → Offer)
    (each : ∀ item before after, add item before = .ok after → Overrides (offer item) before after)
    (items : List α) (before after : Context) (added : Sources.addAll add items before = .ok after) :
    Overrides (fun scope key => items.reverse.findSome? fun item => offer item scope key) before
      after := by
  induction items generalizing before with
  | nil =>
      cases added
      exact overrides_nothing _
  | cons item rest ih =>
      rw [Sources.addAll] at added
      cases first : add item before with
      | error failure =>
          rw [first] at added
          cases added
      | ok middle =>
          rw [first] at added
          have here := each item before middle first
          have later := ih middle added
          refine (here.next later).restated fun scope key => ?_
          rw [List.reverse_cons, List.findSome?_append, List.findSome?_singleton]

theorem fold_gives_way (add : Context → α → Context) (offer : α → Scope → String → Option Json)
    (each : ∀ context item, GivesWay (offer item) context (add context item)) (items : List α)
    (context : Context) :
    GivesWay (fun scope key => items.findSome? fun item => offer item scope key) context
      (items.foldl add context) := by
  induction items generalizing context with
  | nil => exact ⟨rfl, fun scope key => (Option.or_none).symm⟩
  | cons item rest ih =>
      have here := each context item
      have later := ih (add context item)
      refine ⟨later.start.trans here.start, fun scope key => ?_⟩
      rw [List.foldl_cons, later.values, here.values, Option.or_assoc, List.findSome?_cons]
      cases offer item scope key <;> rfl

end Context

namespace Sources

variable (tree : FileTree) (program : Program) (sources : Sources) (record : Batch.Record)

def chargeCodeInput (code : Option String) (key : String) : Option (Except InputError Json) :=
  if key = "charge_code" then code.map fun code => .ok (string code) else none

def pairInput (key : String) (pair : String) : Option (Except InputError Json) :=
  (splitPair? pair).bind fun (name, raw) =>
    if Text.trim name = key then some (coerceInput (Entries.find? key program.inputs) raw) else none

def pairsInput (key : String) : Option (Except InputError Json) :=
  sources.inputs.reverse.findSome? (pairInput program key)

-- What a cell in the column of a key says. The cell of a declared input is read unless it is empty, any
-- other is an extracted field as it is.
def cellSays (scope : Scope) (key cell : String) : Option (Except InputError Json) :=
  match scope, Entries.find? key program.inputs with
  | .input, some parameter =>
    if cell.isEmpty then none else some (coerceInput (some parameter) cell)
  | .extract, none => some (.ok (string cell))
  | _, _ => none

def cellsSay (scope : Scope) (key : String) : Option (Except InputError Json) :=
  record.reverse.findSome? fun cell =>
    if cell.1 = key then cellSays program scope key cell.2 else none

theorem cells_say_found (distinct : (Entries.keys record).Nodup) (scope : Scope) (key : String) :
    cellsSay program record scope key =
      (Entries.find? key record).bind (cellSays program scope key) :=
  Entries.find_some_distinct record record.reverse distinct (fun _ => List.mem_reverse) _ key

def fileInput (path : String) (key : String) : Option Json :=
  if Path.isDocument path then
    match tree.loadDocument path with
    | .ok (object entries) => Entries.find? key entries
    | _ => none
  else
    match List.find? (fun entry => entry.2.acceptsFile) program.inputs with
    | some (name, _) => if name = key then some (string path) else none
    | none => none

def givenExtract (text : String) (key : String) : Option Json :=
  match Json.read text with
  | .ok (object entries) => Entries.find? key entries
  | _ => none

def defaultInput (key : String) : Option Json :=
  program.inputs.findSome? fun entry => if entry.1 = key then entry.2.default else none

theorem default_found (distinct : (Entries.keys program.inputs).Nodup) (key : String) :
    defaultInput program key = (Entries.find? key program.inputs).bind Parameter.default :=
  Entries.find_some_distinct program.inputs program.inputs distinct (fun _ => Iff.rfl) _ key

open Context

theorem constants_give_way (constants : Entries Json) (context : Context) :
    GivesWay (fun scope key => if scope = .constants then Entries.find? key constants else none)
      context (addConstants constants context) := by
  refine (fold_gives_way _
    (fun (entry : String × Json) other name =>
      if Scope.constants = other ∧ entry.1 = name then some entry.2 else none)
    (fun context entry => context.gives_way_set .constants entry.1 entry.2)
    constants context).restated fun scope key => ?_
  cases scope with
  | constants =>
      simp only [true_and, if_true]
      exact Entries.find_some_first constants key
  | input | extract => exact List.findSome?_eq_none_iff.mpr fun _ _ => by simp

theorem defaults_give_way (context : Context) :
    GivesWay (fun scope key => if scope = .input then defaultInput program key else none) context
      (context.applyDefaults program.inputs) := by
  refine (fold_gives_way (fun context entry => context.applyDefault entry.1 entry.2)
    (fun (entry : String × Parameter) other name =>
      if Scope.input = other ∧ entry.1 = name then entry.2.default else none)
    (fun context entry => ?_) program.inputs context).restated fun scope key => ?_
  · cases given : entry.2.default with
    | none =>
        rw [applyDefault, given]
        exact ⟨rfl, fun scope key => by rw [ite_self, Option.or_none]⟩
    | some value =>
        rw [applyDefault, given]
        exact context.gives_way_set .input entry.1 value
  · cases scope with
    | input =>
        simp only [true_and, if_true]
        rfl
    | constants | extract => exact List.findSome?_eq_none_iff.mpr fun _ _ => by simp

theorem input_file_overrides (path : String) (before after : Context)
    (added : addInputFile tree program path before = .ok after) :
    Overrides
      (fun scope key => if scope = .input then (fileInput tree program path key).map .ok else none)
      before after := by
  unfold addInputFile at added
  unfold fileInput
  split at added
  · rename_i document
    split at added
    · cases added
    · rename_i entries loaded
      cases added
      have distinct := ((object_well_formed_iff entries).mp (tree.document_well_formed path _ loaded)).1
      simp only [document, loaded, if_true]
      exact overrides_extend_input before entries distinct
    · cases added
  · rename_i other
    simp only [if_neg other]
    cases found : List.find? (fun entry => entry.2.acceptsFile) program.inputs with
    | none =>
        rw [found] at added
        cases added
    | some entry =>
        rw [found] at added
        cases added
        refine (overrides_set before .input entry.1 (string path)).restated fun scope key => ?_
        cases scope <;> by_cases same : entry.1 = key <;> simp [same]

theorem cell_overrides (cell : String × String) (before after : Context)
    (added : addCell program cell.1 cell.2 before = .ok after) :
    Overrides
      (fun scope key => if cell.1 = key then cellSays program scope key cell.2 else none)
      before after := by
  rcases cell with ⟨column, cell⟩
  unfold addCell at added
  cases declared : Entries.find? column program.inputs with
  | none =>
      simp only [declared] at added
      cases added
      refine (overrides_set before .extract column (string cell)).restated fun scope key => ?_
      by_cases same : column = key
      · subst same
        cases scope <;> simp [cellSays, declared]
      · simp [same]
  | some parameter =>
      simp only [declared] at added
      by_cases empty : cell.isEmpty = true
      · rw [if_pos empty] at added
        cases added
        refine (overrides_nothing _).restated fun scope key => ?_
        by_cases same : column = key
        · subst same
          cases scope <;> simp [cellSays, declared, empty]
        · simp [same]
      · rw [if_neg empty] at added
        cases coerced : parameter.kind.coerce cell with
        | error cause =>
            rw [coerced] at added
            cases added
        | ok value =>
            rw [coerced] at added
            cases added
            refine (overrides_set before .input column value).restated fun scope key => ?_
            by_cases same : column = key
            · subst same
              cases scope <;> simp [cellSays, declared, empty, coerceInput, coerced]
            · simp [same]

theorem pair_overrides (pair : String) (before after : Context)
    (added : addPair program pair before = .ok after) :
    Overrides (fun scope key => if scope = .input then pairInput program key pair else none) before
      after := by
  unfold addPair at added
  cases split : splitPair? pair with
  | none =>
      rw [split] at added
      cases added
  | some given =>
      rcases given with ⟨name, raw⟩
      simp only [split] at added
      cases coerced : coerceInput (Entries.find? (Text.trim name) program.inputs) raw with
      | error cause =>
          rw [coerced] at added
          cases added
      | ok value =>
          rw [coerced] at added
          cases added
          refine (overrides_set before .input (Text.trim name) value).restated fun scope key => ?_
          simp only [pairInput, split, Option.bind_some]
          by_cases same : Text.trim name = key
          · subst same
            cases scope <;> simp [coerced]
          · simp [same]

theorem pairs_override (before after : Context)
    (added : addAll (addPair program) sources.inputs before = .ok after) :
    Overrides (fun scope key => if scope = .input then pairsInput program sources key else none)
      before after := by
  refine (add_all_overrides _ _ (pair_overrides program) sources.inputs before after
    added).restated fun scope key => ?_
  cases scope with
  | input =>
      simp only [if_true]
      rfl
  | constants | extract => exact List.findSome?_eq_none_iff.mpr fun _ _ => by simp

theorem charge_code_overrides (code : Option String) (context : Context) :
    Overrides (fun scope key => if scope = .input then chargeCodeInput code key else none) context
      (addChargeCode code context) := by
  cases code with
  | none =>
      refine (overrides_nothing _).restated fun scope key => ?_
      simp [chargeCodeInput]
  | some code =>
      refine (overrides_set context .input "charge_code" (string code)).restated fun scope key => ?_
      cases scope <;> by_cases same : "charge_code" = key <;>
        simp [chargeCodeInput, same, Eq.comm (a := key)]

theorem extract_overrides (text : Option String) (before after : Context)
    (added : addExtract text before = .ok after) :
    Overrides
      (fun scope key =>
        if scope = .extract then (text.bind fun text => givenExtract text key).map .ok else none)
      before after := by
  cases text with
  | none =>
      cases added
      refine (overrides_nothing _).restated fun scope key => ?_
      simp
  | some text =>
      simp only [addExtract] at added
      split at added
      · cases added
      · rename_i entries read
        cases added
        have distinct := ((object_well_formed_iff entries).mp (Json.read_well_formed _ _ read)).1
        refine (overrides_extend_extract before entries distinct).restated fun scope key => ?_
        simp only [Option.bind_some, givenExtract, read]
      · cases added

def supply (record : Option Batch.Record) : Offer := fun scope key =>
  (if scope = .extract then (sources.extract.bind fun text => givenExtract text key).map .ok
    else none).or <|
  (if scope = .input then chargeCodeInput sources.chargeCode key else none).or <|
  (if scope = .input then pairsInput program sources key else none).or <|
  (record.bind fun record => cellsSay program record scope key).or <|
  if scope = .input then (sources.inputPath.bind fun path => fileInput tree program path key).map .ok
  else none

theorem check_inputs_same (parameters : Entries Parameter) (before after : Context)
    (checked : checkInputs before parameters = .ok after) : after = before := by
  induction parameters with
  | nil =>
      cases checked
      rfl
  | cons entry rest ih =>
      rw [checkInputs] at checked
      split at checked
      · exact ih checked
      · split at checked
        · exact ih checked
        · cases checked

theorem finish_ok (before after : Context) (finished : finish program before = .ok after) :
    after = before.applyDefaults program.inputs ∧ after.missingInputs program.inputs = [] ∧
      checkInputs after program.inputs = .ok after := by
  unfold finish at finished
  simp only at finished
  split at finished
  · rename_i none_missing
    have same := check_inputs_same program.inputs _ after finished
    rw [← same] at none_missing finished
    exact ⟨same, none_missing, finished⟩
  · cases finished

def initial : Context :=
  addConstants sources.constants { program.context with start := sources.start }

theorem initial_values (scope : Scope) (key : String) :
    (initial program sources).valueAt scope key =
      if scope = .constants then
        (Entries.find? key program.constants).or (Entries.find? key sources.constants)
      else none := by
  have given := (constants_give_way sources.constants
    { program.context with start := sources.start }).values scope key
  cases scope with
  | constants => exact given
  | input | extract => exact given

theorem initial_start : (initial program sources).start = sources.start :=
  (constants_give_way sources.constants { program.context with start := sources.start }).start

def addGivenFile (context : Context) : Except Failure Context :=
  match sources.inputPath with
  | some path => addInputFile tree program path context
  | none => .ok context

def addGivenRecord (record : Option Batch.Record) (context : Context) : Except Failure Context :=
  match record with
  | some record => addAll (fun cell => addCell program cell.1 cell.2) record context
  | none => .ok context

theorem context_stages (record : Option Batch.Record) :
    sources.context tree program record = (do
      let withFile ← addGivenFile tree program sources (initial program sources)
      let withRecord ← addGivenRecord program record withFile
      let withPairs ← addAll (addPair program) sources.inputs withRecord
      let supplied ← addExtract sources.extract (addChargeCode sources.chargeCode withPairs)
      finish program supplied) := by
  unfold Sources.context addGivenFile addGivenRecord initial
  cases sources.inputPath <;> cases record <;> rfl

theorem given_file_overrides (before after : Context)
    (added : addGivenFile tree program sources before = .ok after) :
    Overrides
      (fun scope key => if scope = .input then
        (sources.inputPath.bind fun path => fileInput tree program path key).map .ok else none)
      before after := by
  unfold addGivenFile at added
  cases given : sources.inputPath with
  | none =>
      rw [given] at added
      cases added
      exact (overrides_nothing _).restated fun scope key => by simp
  | some path =>
      rw [given] at added
      exact input_file_overrides tree program path before after added

theorem given_record_overrides (record : Option Batch.Record) (before after : Context)
    (added : addGivenRecord program record before = .ok after) :
    Overrides (fun scope key => record.bind fun record => cellsSay program record scope key) before
      after := by
  cases record with
  | none =>
      cases added
      exact overrides_nothing _
  | some given => exact add_all_overrides _ _ (cell_overrides program) given before after added

theorem context_supplied (record : Option Batch.Record) (context : Context)
    (built : sources.context tree program record = .ok context) :
    ∃ supplied, Overrides (supply tree program sources record) (initial program sources) supplied ∧
      finish program supplied = .ok context := by
  simp only [context_stages, bind_ok_iff] at built
  obtain ⟨withFile, fileAdded, withRecord, recordAdded, withPairs, pairsAdded, supplied,
    extractAdded, finished⟩ := built
  have file := given_file_overrides tree program sources _ withFile fileAdded
  have cells := given_record_overrides program record withFile withRecord recordAdded
  have pairs := pairs_override program sources withRecord withPairs pairsAdded
  have charged := charge_code_overrides sources.chargeCode withPairs
  have extracted := extract_overrides sources.extract _ supplied extractAdded
  exact ⟨supplied, (((file.next cells).next pairs).next charged).next extracted, finished⟩

theorem supply_constants (record : Option Batch.Record) (key : String) :
    supply tree program sources record .constants key = none := by
  have silent : ∀ given : Batch.Record, cellsSay program given .constants key = none := by
    intro given
    refine List.findSome?_eq_none_iff.mpr fun cell _ => ?_
    rw [show cellSays program .constants key cell.2 = none from rfl, ite_self]
  cases record with
  | none => rfl
  | some given => simp [supply, silent]

theorem context_constants (record : Option Batch.Record) (context : Context)
    (built : sources.context tree program record = .ok context) (key : String) :
    Entries.find? key context.constants =
      (Entries.find? key program.constants).or (Entries.find? key sources.constants) := by
  obtain ⟨supplied, overrides, finished⟩ := context_supplied tree program sources record context built
  obtain ⟨rfl, _, _⟩ := finish_ok program supplied _ finished
  have kept : Entries.find? key (supplied.applyDefaults program.inputs).constants =
      supplied.valueAt .constants key :=
    ((defaults_give_way program supplied).values .constants key).trans Option.or_none
  have same := overrides.values .constants key
  rw [supply_constants, Option.none_or, initial_values, if_pos rfl] at same
  rw [kept]
  exact Option.map_injective (fun _ _ => Except.ok.inj) same

-- What the sources say of an input, the ones that go before first: the charge code, the pairs of the
-- command line, the cell of the record, the input file and the declared default.
def inputSaid (record : Option Batch.Record) (key : String) : Option (Except InputError Json) :=
  (chargeCodeInput sources.chargeCode key).or <|
  (pairsInput program sources key).or <|
  (record.bind fun record => (Entries.find? key record).bind (cellSays program .input key)).or <|
  ((sources.inputPath.bind fun path => fileInput tree program path key).map .ok).or <|
  ((Entries.find? key program.inputs).bind Parameter.default).map .ok

def extractSaid (record : Option Batch.Record) (key : String) : Option (Except InputError Json) :=
  ((sources.extract.bind fun text => givenExtract text key).map .ok).or <|
  record.bind fun record => (Entries.find? key record).bind (cellSays program .extract key)

structure Precedence (record : Option Batch.Record) (context : Context) : Prop where
  input : ∀ key, (Entries.find? key context.input).map .ok =
    inputSaid tree program sources record key
  extract : ∀ key, (Entries.find? key context.extract).map .ok =
    extractSaid program sources record key
  constants : ∀ key, Entries.find? key context.constants =
    (Entries.find? key program.constants).or (Entries.find? key sources.constants)
  start : context.start = sources.start

-- Every context that can be put together holds at each key what the first source says of it. The
-- declared inputs and the record are tables: no name stands in them twice.
theorem context_precedence (distinct : (Entries.keys program.inputs).Nodup)
    (record : Option Batch.Record) (distinctCells : ∀ given ∈ record, (Entries.keys given).Nodup)
    (context : Context) (built : sources.context tree program record = .ok context) :
    Precedence tree program sources record context := by
  have constants := context_constants tree program sources record context built
  obtain ⟨supplied, overrides, finished⟩ := context_supplied tree program sources record context built
  obtain ⟨rfl, _, _⟩ := finish_ok program supplied _ finished
  have defaults := defaults_give_way program supplied
  have said (scope : Scope) (key : String) := overrides.values scope key
  have cells : ∀ scope key, (record.bind fun record => cellsSay program record scope key) =
      record.bind fun record => (Entries.find? key record).bind (cellSays program scope key) := by
    intro scope key
    cases record with
    | none => rfl
    | some given => exact cells_say_found program given (distinctCells given rfl) scope key
  simp only [supply, cells, initial_values] at said
  refine ⟨fun key => ?_, fun key => ?_, constants, ?_⟩
  · have value : Entries.find? key (supplied.applyDefaults program.inputs).input =
        (supplied.valueAt .input key).or (defaultInput program key) := defaults.values .input key
    rw [value, default_found program distinct, Option.map_or, said]
    simp [inputSaid, Option.or_assoc]
  · have value : Entries.find? key (supplied.applyDefaults program.inputs).extract =
        supplied.valueAt .extract key := (defaults.values .extract key).trans Option.or_none
    rw [value, said]
    simp [extractSaid]
  · rw [defaults.start, overrides.start, initial_start]

def receiptProgram : Program where
  name := "receipt-entry"
  description := none
  inputs := [("receipt", ⟨some "image", true, none, none, none⟩),
    ("attendees", ⟨some "number", false, some (integer 1), none, none⟩),
    ("note", ⟨none, false, some (string "lunch"), none, none⟩)]
  constants := [("reason", string "Entertainment")]
  extractions := [⟨"amount", "Total amount", none⟩]
  outputs := []
  steps := [
    ⟨0, "Upload", .fileUpload, some "#receipt", none, none, none,
      .fileUpload "#receipt" (.lookup ⟨.input, ["receipt"]⟩)⟩,
    ⟨1, "Note", .fill, some "#note", none, none, none,
      .fill "#note" (.template [.reference ⟨.input, ["note"]⟩, .text ", ",
        .reference ⟨.constants, ["reason"]⟩])⟩]

def receiptTree : FileTree :=
  ⟨["home"], [(["home", "inputs.yaml"],
    .file "receipt: /receipts/0.jpg\nattendees: 2\nteam: sales\n")]⟩

def receiptSources : Sources where
  inputPath := some "inputs.yaml"
  inputs := ["attendees=3", " attendees = 4"]
  chargeCode := some "CK001"
  extract := some "\x7b\"amount\": 15000\x7d"
  start := 1
  constants := [("reason", string "Travel"), ("region", string "EU")]

def receiptRecord : Batch.Record :=
  [("receipt", "/receipts/1.jpg"), ("attendees", "7"), ("note", ""), ("amount", "5000"), ("total", "9")]

theorem receipt_context_built :
    ∃ context, receiptSources.context receiptTree receiptProgram (some receiptRecord) = .ok context := by
  have built : (receiptSources.context receiptTree receiptProgram (some receiptRecord)).isOk = true := by
    decide +kernel
  cases found : receiptSources.context receiptTree receiptProgram (some receiptRecord) with
  | ok context => exact ⟨context, rfl⟩
  | error failure =>
      rw [found] at built
      cases built

-- The number of attendees is in the file, the record and two pairs: the last pair counts.
theorem context_precedence_receipt :
    (Entries.keys receiptProgram.inputs).Nodup ∧ (Entries.keys receiptRecord).Nodup ∧
      ∃ context,
        receiptSources.context receiptTree receiptProgram (some receiptRecord) = .ok context ∧
        Precedence receiptTree receiptProgram receiptSources (some receiptRecord) context ∧
        (Entries.find? "attendees" context.input).map .ok =
          some (.ok (integer 4) : Except InputError Json) ∧
        (Entries.find? "charge_code" context.input).map .ok =
          some (.ok (string "CK001") : Except InputError Json) ∧
        Entries.find? "reason" context.constants = some (string "Entertainment") := by
  obtain ⟨context, built⟩ := receipt_context_built
  have precedence := context_precedence receiptTree receiptProgram receiptSources (by decide)
    (some receiptRecord) (by decide) context built
  refine ⟨by decide, by decide, context, built, precedence, ?_, ?_, ?_⟩
  · rw [precedence.input]
    rfl
  · rw [precedence.input]
    rfl
  · rw [precedence.constants]
    rfl

end Sources

end BrowserFlow
