import BrowserFlow.Action
import BrowserFlow.Proofs.Authoring.Pattern
/-! The authoring grammar, said without the check: which values are workflow documents. -/
set_option autoImplicit false

namespace BrowserFlow.Authoring

open Json

def OnlyKeys (names : List String) (entries : Entries Json) : Prop :=
  ∀ key ∈ Entries.keys entries, key ∈ names

def Must (key : String) (rule : Json → Prop) (entries : Entries Json) : Prop :=
  ∃ value, Entries.find? key entries = some value ∧ rule value

def May (key : String) (rule : Json → Prop) (entries : Entries Json) : Prop :=
  ∀ value, Entries.find? key entries = some value → rule value

theorem Must.weaken {key : String} {rule weaker : Json → Prop} {entries : Entries Json}
    (must : Must key rule entries) (implied : ∀ value, rule value → weaker value) :
    Must key weaker entries := by
  obtain ⟨value, found, follows⟩ := must
  exact ⟨value, found, implied value follows⟩

theorem May.weaken {key : String} {rule weaker : Json → Prop} {entries : Entries Json}
    (may : May key rule entries) (implied : ∀ value, rule value → weaker value) :
    May key weaker entries :=
  fun value found => implied value (may value found)

def IsText (value : Json) : Prop := ∃ text, value = string text

def IsNonemptyText (value : Json) : Prop := ∃ text, value = string text ∧ text ≠ ""

def IsTextIn (language : Language Char) (value : Json) : Prop :=
  ∃ text, value = string text ∧ text.toList ∈ language

def IsWordOf (words : List String) (value : Json) : Prop := ∃ word ∈ words, value = string word

theorem text_of_fitting {language : Language Char} (value : Json) (fits : IsTextIn language value) :
    IsText value := by
  obtain ⟨text, written, _⟩ := fits
  exact ⟨text, written⟩

theorem text_of_nonempty (value : Json) (nonempty : IsNonemptyText value) : IsText value := by
  obtain ⟨text, written, _⟩ := nonempty
  exact ⟨text, written⟩

theorem text_of_word {words : List String} (value : Json) (listed : IsWordOf words value) :
    IsText value := by
  obtain ⟨word, _, written⟩ := listed
  exact ⟨word, written⟩

def IsFlag (value : Json) : Prop := ∃ flag, value = bool flag

def IsScalar (value : Json) : Prop :=
  IsText value ∨ IsFlag value ∨ (∃ whole, value = integer whole) ∨ ∃ double, value = float double

def IsMilliseconds (value : Json) : Prop := ∃ whole : Int, value = integer whole ∧ 1 ≤ whole

def IsRecord (rules : Entries Json → Prop) (value : Json) : Prop :=
  ∃ entries, value = object entries ∧ rules entries

def IsTable (rule : Json → Prop) : Json → Prop :=
  IsRecord fun entries => ∀ entry ∈ entries, rule entry.2

def IsList (rule : Json → Prop) (value : Json) : Prop :=
  ∃ items, value = array items ∧ ∀ item ∈ items, rule item

def IsNonemptyList (rule : Json → Prop) (value : Json) : Prop :=
  ∃ items, value = array items ∧ items ≠ [] ∧ ∀ item ∈ items, rule item

inductive IsCondition : Json → Prop where
  | comparison (entries : Entries Json)
      (keys : OnlyKeys ["field", "op", "value"] entries)
      (field : Must "field" (IsTextIn Pattern.conditionField.language) entries)
      (op : Must "op" (IsWordOf ["==", "!=", ">", "<", ">=", "<="]) entries)
      (value : Must "value" IsScalar entries) : IsCondition (object entries)
  | combination (entries : Entries Json) (parts : List Json)
      (keys : OnlyKeys ["conditions", "match"] entries)
      (found : Entries.find? "conditions" entries = some (array parts))
      (nonempty : parts ≠ [])
      (each : ∀ part ∈ parts, IsCondition part)
      (mode : Must "match" (IsWordOf ["all", "any"]) entries) : IsCondition (object entries)

def spellings : Action → List String
  | .navigate => ["navigate"]
  | .fill => ["fill"]
  | .click => ["click"]
  | .press => ["press"]
  | .type => ["type"]
  | .select => ["select"]
  | .fileUpload => ["file_upload"]
  | .wait => ["wait"]
  | .rawCode => ["raw_code", "playwright_code"]

-- The keys that a step must have besides its name and its action.
def demands : Action → List String
  | .navigate => ["url"]
  | .fill => ["selector", "value"]
  | .click => ["selector"]
  | .press => ["selector", "key"]
  | .type => ["value"]
  | .select => ["selector", "value"]
  | .fileUpload => ["selector", "file"]
  | .wait => ["selector"]
  | .rawCode => ["code"]

structure StepRules (entries : Entries Json) : Prop where
  keys : OnlyKeys ["name", "action", "selector", "url", "value", "key", "file", "timeout", "code",
    "hint", "when", "output", "description"] entries
  name : Must "name" IsNonemptyText entries
  action : ∃ action, Must "action" (IsWordOf (spellings action)) entries ∧
    ∀ field ∈ demands action, field ∈ Entries.keys entries
  texts : ∀ key ∈ ["selector", "url", "key", "file", "code", "hint", "description"],
    May key IsText entries
  value : May "value" IsScalar entries
  timeout : May "timeout" IsMilliseconds entries
  output : May "output" (IsTextIn Pattern.identifier) entries
  condition : May "when" IsCondition entries

structure ParameterRules (entries : Entries Json) : Prop where
  keys : OnlyKeys ["type", "required", "default", "description", "example"] entries
  type : May "type" IsText entries
  description : May "description" IsText entries
  required : May "required" IsFlag entries

structure ExtractionRules (entries : Entries Json) : Prop where
  keys : OnlyKeys ["field", "prompt", "type"] entries
  field : Must "field" IsText entries
  prompt : Must "prompt" IsText entries
  type : May "type" IsText entries

structure OutputRules (entries : Entries Json) : Prop where
  keys : OnlyKeys ["description"] entries
  description : May "description" IsText entries

structure WorkflowRules (entries : Entries Json) : Prop where
  keys : OnlyKeys ["name", "description", "input", "constants", "extract", "output", "steps"]
    entries
  name : Must "name" (IsTextIn Pattern.workflowName.language) entries
  description : May "description" IsText entries
  input : May "input" (IsTable (IsRecord ParameterRules)) entries
  constants : May "constants" (IsRecord fun _ => True) entries
  extract : May "extract" (IsList (IsRecord ExtractionRules)) entries
  output : May "output" (IsTable (IsRecord OutputRules)) entries
  steps : Must "steps" (IsNonemptyList (IsRecord StepRules)) entries

def IsWorkflow : Json → Prop := IsRecord WorkflowRules

end BrowserFlow.Authoring
