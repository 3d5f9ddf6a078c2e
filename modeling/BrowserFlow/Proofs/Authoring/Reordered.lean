import BrowserFlow.Proofs.Authoring.Grammar
import BrowserFlow.Proofs.Json.WellFormed
/-! Objects with the same value at each key. The order of an object's keys does not matter to the rules of
the grammar. -/
set_option autoImplicit false

namespace BrowserFlow

namespace Json

def Reordered (entries others : Entries Json) : Prop :=
  ∀ key, Entries.find? key entries = Entries.find? key others

namespace Reordered

variable {entries others : Entries Json}

theorem symm (same : Reordered entries others) : Reordered others entries :=
  fun key => (same key).symm

theorem of_listed (names : List String) (known : ∀ key ∈ Entries.keys entries, key ∈ names)
    (otherKnown : ∀ key ∈ Entries.keys others, key ∈ names)
    (each : ∀ key ∈ names, Entries.find? key entries = Entries.find? key others) :
    Reordered entries others := by
  intro key
  by_cases listed : key ∈ names
  · exact each key listed
  · rw [Entries.find_absent key entries fun inside => listed (known key inside),
      Entries.find_absent key others fun inside => listed (otherKnown key inside)]

-- Among distinct keys, objects with the same value at each key are those with the same entries in some
-- order.
theorem permuted_iff (distinct : (Entries.keys entries).Nodup)
    (otherDistinct : (Entries.keys others).Nodup) : Reordered entries others ↔ entries.Perm others := by
  have found : ∀ all : Entries Json, (Entries.keys all).Nodup → ∀ key value,
      Entries.find? key all = some value ↔ (key, value) ∈ all := fun all distinct key value =>
    ⟨Entries.find_member key value all, Entries.find_distinct all distinct key value⟩
  rw [List.perm_ext_iff_of_nodup (.of_map _ distinct) (.of_map _ otherDistinct)]
  constructor
  · rintro same ⟨key, value⟩
    rw [← found entries distinct, ← found others otherDistinct, same key]
  · intro members key
    ext value
    rw [found entries distinct, found others otherDistinct]
    exact members _

theorem well_formed (same : Reordered entries others) (distinct : (Entries.keys others).Nodup)
    (proper : (object entries).wellFormed = true) : (object others).wellFormed = true := by
  refine (object_well_formed_iff others).mpr ⟨distinct, fun entry member => ?_⟩
  have found := Entries.find_distinct others distinct entry.1 entry.2 member
  exact found_well_formed entries proper entry.1 entry.2 ((same entry.1).trans found)

end Reordered

end Json

namespace Authoring

open Json

variable {entries others : Entries Json}

theorem may_same (key : String) (rule : Json → Prop)
    (same : Entries.find? key entries = Entries.find? key others) :
    May key rule entries ↔ May key rule others := by
  rw [May, May, same]

theorem must_same (key : String) (rule : Json → Prop)
    (same : Entries.find? key entries = Entries.find? key others) :
    Must key rule entries ↔ Must key rule others := by
  rw [Must, Must, same]

theorem key_same (key : String) (same : Entries.find? key entries = Entries.find? key others) :
    key ∈ Entries.keys entries ↔ key ∈ Entries.keys others := by
  rw [← Entries.contains_member, ← Entries.contains_member, Entries.contains_iff, Entries.contains_iff,
    same]

theorem only_keys_same (names : List String)
    (same : ∀ key, key ∉ names → Entries.find? key entries = Entries.find? key others) :
    OnlyKeys names entries ↔ OnlyKeys names others := by
  refine forall_congr' fun key => ?_
  by_cases listed : key ∈ names
  · simp [listed]
  · rw [key_same key (same key listed)]

section

variable (same : Reordered entries others)

include same

theorem parameter_rules_reordered (rules : ParameterRules entries) : ParameterRules others where
  keys := (only_keys_same _ fun key _ => same key).mp rules.keys
  type := (may_same _ _ (same _)).mp rules.type
  description := (may_same _ _ (same _)).mp rules.description
  required := (may_same _ _ (same _)).mp rules.required

theorem extraction_rules_reordered (rules : ExtractionRules entries) : ExtractionRules others where
  keys := (only_keys_same _ fun key _ => same key).mp rules.keys
  field := (must_same _ _ (same _)).mp rules.field
  prompt := (must_same _ _ (same _)).mp rules.prompt
  type := (may_same _ _ (same _)).mp rules.type

theorem output_rules_reordered (rules : OutputRules entries) : OutputRules others where
  keys := (only_keys_same _ fun key _ => same key).mp rules.keys
  description := (may_same _ _ (same _)).mp rules.description

end

end Authoring

end BrowserFlow
