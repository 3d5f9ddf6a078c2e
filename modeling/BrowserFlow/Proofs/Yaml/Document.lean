import BrowserFlow.Files.Documents
import BrowserFlow.Proofs.Json.WellFormed
import BrowserFlow.Proofs.Success
import BrowserFlow.Yaml.Document
/-! The value of a document is well formed: a key that stands twice in a mapping is merged, and whole
numbers beyond 64 bits are refused. -/
set_option autoImplicit false

namespace BrowserFlow.Yaml

open Json

theorem float_value_well_formed (value : Number.Extended) : (floatValue value).wellFormed = true := by
  cases value <;> rfl

theorem whole_value_well_formed (whole : Int) (value : Json) (made : wholeValue whole = .ok value) :
    value.wellFormed = true := by
  unfold wholeValue at made
  split at made
  · rename_i fits
    cases made
    exact fits
  · cases made

theorem plain_value_well_formed (text : String) (value : Json) (made : plainValue? text = some value) :
    value.wellFormed = true := by
  unfold plainValue? at made
  split at made
  · cases made
    rfl
  · split at made
    · cases made
      rfl
    · split at made
      · split at made
        · rename_i fits
          cases made
          exact fits
        · cases made
      · split at made
        · cases made
          rfl
        · split at made
          · cases made
            exact float_value_well_formed _
          · cases made
            rfl

theorem plain_well_formed (text : String) (value : Json) (made : plainValue text = .ok value) :
    value.wellFormed = true := by
  cases found : plainValue? text with
  | some plain =>
      rw [plainValue, found] at made
      cases made
      exact plain_value_well_formed text value found
  | none =>
      rw [plainValue, found] at made
      cases made

theorem tagged_value_well_formed (tag : Octets) (plain : Bool) (text : String) (value : Json)
    (made : taggedValue tag plain text = .ok value) : value.wellFormed = true := by
  unfold taggedValue at made
  split at made
  · obtain ⟨flag, _, rfl⟩ := (map_ok_iff _ _ _).mp made
    rfl
  · split at made
    · obtain ⟨whole, _, given⟩ := (bind_ok_iff _ _ _).mp made
      exact whole_value_well_formed whole value given
    · split at made
      · obtain ⟨float, _, rfl⟩ := (map_ok_iff _ _ _).mp made
        exact float_value_well_formed float
      · split at made
        · split at made <;> cases made
          rfl
        · split at made
          · exact plain_well_formed text value made
          · cases made
            rfl

theorem scalar_value_well_formed (tag : Option Octets) (plain : Bool) (text : String) (value : Json)
    (made : scalarValue tag plain text = .ok value) : value.wellFormed = true := by
  obtain ⟨_, _, valued⟩ := (bind_ok_iff _ _ _).mp made
  cases tag with
  | some tag => exact tagged_value_well_formed tag plain text value valued
  | none =>
      cases plain with
      | true => exact plain_well_formed text value valued
      | false =>
          cases valued
          rfl

variable {α β : Type}

-- What all values of a step have in common, however many aliases were left.
def Gives (property : α → Prop) (valuing : Valuing α) : Prop :=
  ∀ left value after, valuing left = .ok (value, after) → property value

theorem gives_pure (property : α → Prop) (value : α) (holds : property value) :
    Gives property (pure value : Valuing α) := by
  intro left other after made
  cases made
  exact holds

theorem gives_thrown (property : α → Prop) (error : DocumentError) :
    Gives property (throw error : Valuing α) := by
  intro left value after made
  cases made

theorem Gives.bind {first : α → Prop} {second : β → Prop} {valuing : Valuing α}
    {next : α → Valuing β} (before : Gives first valuing)
    (later : ∀ value, first value → Gives second (next value)) : Gives second (valuing >>= next) := by
  intro left value after made
  obtain ⟨⟨middle, remaining⟩, valued, continued⟩ := (bind_ok_iff _ _ _).mp made
  exact later middle (before left middle remaining valued) remaining value after continued

theorem gives_anything (valuing : Valuing α) : Gives (fun _ => True) valuing :=
  fun _ _ _ _ => trivial

theorem gives_fit (property : α → Prop) (path : NodePath) (mark : Mark) (found : Except Misfit α)
    (fits : ∀ value, found = .ok value → property value) :
    Gives property (orUnfit path mark found) := by
  cases found with
  | ok value => exact gives_pure property value (fits value rfl)
  | error misfit => exact gives_thrown property _

theorem gives_items (value : NodePath → Node → Valuing Json)
    (each : ∀ path node, Gives (fun value => value.wellFormed = true) (value path node))
    (path : NodePath) (index : Nat) (items : List Node) :
    Gives (fun values => ∀ item ∈ values, item.wellFormed = true)
      (itemValues value path index items) := by
  induction items generalizing index with
  | nil => exact gives_pure _ [] (by simp)
  | cons item rest ih =>
      refine (each _ item).bind fun first firstProper => (ih (index + 1)).bind fun others proper => ?_
      exact gives_pure _ _ (List.forall_mem_cons.mpr ⟨firstProper, proper⟩)

theorem gives_entries (keyText : Bool → Node → Valuing String)
    (value : PathStep → Node → Valuing Json)
    (each : ∀ step node, Gives (fun value => value.wellFormed = true) (value step node))
    (first : Bool) (entries : List (Node × Node)) :
    Gives (fun pairs => ∀ entry ∈ pairs, entry.2.wellFormed = true)
      (entryValues keyText value first entries) := by
  induction entries generalizing first with
  | nil => exact gives_pure _ [] (by simp)
  | cons entry rest ih =>
      refine (gives_anything _).bind fun name _ => (each _ entry.2).bind fun found proper =>
        (ih false).bind fun others properOthers => ?_
      exact gives_pure _ _ (List.forall_mem_cons.mpr ⟨proper, properOthers⟩)

theorem gives_value (document : Document) (depth : Nat) (path : NodePath) (node : Node) :
    Gives (fun value => value.wellFormed = true) (document.nodeValue depth path node) := by
  induction depth generalizing path node with
  | zero =>
      unfold Document.nodeValue
      refine (gives_anything _).bind fun target _ => ?_
      cases target with
      | scalar properties plain text => exact gives_fit _ _ _ _ (scalar_value_well_formed _ _ _)
      | sequence properties items => exact (gives_anything _).bind fun _ _ => gives_thrown _ _
      | mapping properties entries => exact (gives_anything _).bind fun _ _ => gives_thrown _ _
      | aliasOf anchor mark => exact gives_thrown _ _
      | broken cause => exact gives_thrown _ _
  | succ depth ih =>
      unfold Document.nodeValue
      refine (gives_anything _).bind fun target _ => ?_
      cases target with
      | scalar properties plain text => exact gives_fit _ _ _ _ (scalar_value_well_formed _ _ _)
      | sequence properties items =>
          refine (gives_anything _).bind fun _ _ =>
            (gives_items _ ih path 0 items).bind fun values proper => ?_
          exact gives_pure _ _ ((array_well_formed_iff values).mpr proper)
      | mapping properties entries =>
          refine (gives_anything _).bind fun _ _ =>
            (gives_entries _ _ (fun step node => ih (step :: path) node) true entries).bind
              fun pairs proper => ?_
          refine gives_pure _ _ ((object_well_formed_iff _).mpr ?_)
          exact Entries.merge_table (fun value => value.wellFormed = true) pairs proper
      | aliasOf anchor mark => exact gives_thrown _ _
      | broken cause => exact gives_thrown _ _

theorem value_well_formed (document : Document) (value : Json)
    (valued : document.value = .ok value) : value.wellFormed = true := by
  obtain ⟨⟨found, left⟩, ran, same⟩ := (map_ok_iff _ _ _).mp valued
  cases same
  exact gives_value document yamlNestingLimit [] document.root _ _ left ran

theorem read_well_formed (text : String) (value : Json) (found : read text = .ok value) :
    value.wellFormed = true := by
  unfold read at found
  simp only at found
  split at found
  · cases found
    rfl
  · split at found
    · exact value_well_formed _ value found
    · obtain ⟨valued, made, checked⟩ := (bind_ok_iff _ _ _).mp found
      obtain ⟨_, _, same⟩ := (bind_ok_iff _ _ _).mp checked
      cases same
      exact value_well_formed _ value made

end BrowserFlow.Yaml

namespace BrowserFlow.FileTree

theorem document_well_formed (tree : FileTree) (path : String) (value : Json)
    (loaded : tree.loadDocument path = .ok value) : value.wellFormed = true := by
  unfold FileTree.loadDocument at loaded
  split at loaded
  · cases loaded
  · rename_i text _
    split at loaded
    · cases loaded
    · rename_i read
      cases loaded
      exact Yaml.read_well_formed text _ read

end BrowserFlow.FileTree
