import Mathlib.Data.List.Nodup
import BrowserFlow.Condition
import BrowserFlow.Proofs.Entries
/-! Values that a document can hold: each object has distinct keys, and each whole number has 64 bits. Their
parts are read without a fault; what is not there counts as empty. -/
set_option autoImplicit false

namespace BrowserFlow.Json

mutual

def wellFormed (value : Json) : Bool :=
  match value with
  | integer whole => Number.fitsInteger whole
  | array items => itemsWellFormed items
  | object entries => decide (Entries.keys entries).Nodup && entriesWellFormed entries
  | _ => true
termination_by structural value

def itemsWellFormed (items : List Json) : Bool :=
  match items with
  | [] => true
  | item :: rest => wellFormed item && itemsWellFormed rest
termination_by structural items

def entriesWellFormed (entries : List (String × Json)) : Bool :=
  match entries with
  | [] => true
  | (_, value) :: rest => wellFormed value && entriesWellFormed rest
termination_by structural entries

end

theorem items_well_formed_iff (items : List Json) :
    itemsWellFormed items = true ↔ ∀ item ∈ items, item.wellFormed = true := by
  induction items with
  | nil => simp [itemsWellFormed]
  | cons item rest ih => simp [itemsWellFormed, ih]

theorem entries_well_formed_iff (entries : List (String × Json)) :
    entriesWellFormed entries = true ↔ ∀ entry ∈ entries, entry.2.wellFormed = true := by
  induction entries with
  | nil => simp [entriesWellFormed]
  | cons entry rest ih => simp [entriesWellFormed, ih]

theorem array_well_formed_iff (items : List Json) :
    (array items).wellFormed = true ↔ ∀ item ∈ items, item.wellFormed = true := by
  rw [wellFormed, items_well_formed_iff]

theorem object_well_formed_iff (entries : Entries Json) :
    (object entries).wellFormed = true ↔
      (Entries.keys entries).Nodup ∧ ∀ entry ∈ entries, entry.2.wellFormed = true := by
  rw [wellFormed, Bool.and_eq_true, decide_eq_true_iff, entries_well_formed_iff]

theorem found_well_formed (entries : Entries Json) (wellFormed : (object entries).wellFormed = true)
    (key : String) (value : Json) (found : Entries.find? key entries = some value) :
    value.wellFormed = true :=
  ((object_well_formed_iff entries).mp wellFormed).2 (key, value)
    (Entries.find_member key value entries found)

mutual

theorem merged_well_formed (value : Json) (proper : value.wellFormed = true) :
    value.merged = value := by
  match value with
  | null => rfl
  | bool _ => rfl
  | integer _ => rfl
  | float _ => rfl
  | string _ => rfl
  | array items =>
      rw [merged, merged_items_well_formed items proper]
  | object entries =>
      simp only [wellFormed, Bool.and_eq_true, decide_eq_true_iff] at proper
      rw [merged, merged_entries_well_formed entries proper.2, Entries.merge_distinct _ proper.1]
termination_by structural value

theorem merged_items_well_formed (items : List Json) (proper : itemsWellFormed items = true) :
    mergedItems items = items := by
  match items with
  | [] => rfl
  | item :: rest =>
      simp only [itemsWellFormed, Bool.and_eq_true] at proper
      rw [mergedItems, merged_well_formed item proper.1, merged_items_well_formed rest proper.2]
termination_by structural items

theorem merged_entries_well_formed (entries : List (String × Json))
    (proper : entriesWellFormed entries = true) : mergedEntries entries = entries := by
  match entries with
  | [] => rfl
  | (key, value) :: rest =>
      simp only [entriesWellFormed, Bool.and_eq_true] at proper
      rw [mergedEntries, merged_well_formed value proper.1,
        merged_entries_well_formed rest proper.2]
termination_by structural entries

end

theorem items_depth_le_iff (items : List Json) (bound : Nat) :
    itemsDepth items ≤ bound ↔ ∀ item ∈ items, item.depth ≤ bound := by
  induction items with
  | nil => simp [itemsDepth]
  | cons item rest ih => rw [itemsDepth, List.forall_mem_cons, ← ih, Nat.max_le]

theorem entries_depth_le_iff (entries : Entries Json) (bound : Nat) :
    entriesDepth entries ≤ bound ↔ ∀ entry ∈ entries, entry.2.depth ≤ bound := by
  induction entries with
  | nil => simp [entriesDepth]
  | cons entry rest ih => rw [entriesDepth, List.forall_mem_cons, ← ih, Nat.max_le]

def entriesOf (value : Json) : Entries Json :=
  value.object?.getD []

@[simp] theorem entries_of_object (entries : Entries Json) : entriesOf (object entries) = entries := rfl

def itemsOf : Json → List Json
  | array items => items
  | _ => []

def textAt (key : String) (entries : Entries Json) : String :=
  (Condition.text? key entries).getD ""

theorem text_found (key text : String) (entries : Entries Json)
    (found : Entries.find? key entries = some (string text)) :
    Condition.text? key entries = some text := by
  simp [Condition.text?, found, string?]

theorem text_at_found (key text : String) (entries : Entries Json)
    (found : Entries.find? key entries = some (string text)) : textAt key entries = text := by
  rw [textAt, text_found key text entries found, Option.getD_some]

end BrowserFlow.Json
