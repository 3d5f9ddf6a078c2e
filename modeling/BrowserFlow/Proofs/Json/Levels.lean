import BrowserFlow.Proofs.Json.Decoded
import BrowserFlow.Proofs.Json.Reading
/-! How deep a value that was read is nested. Arrays and objects of a text are numbered by their levels, and
no reader goes down to the limit; so a value and the levels around it stay below the limit together, also
where it is decoded inside a record. -/
set_option autoImplicit false

namespace BrowserFlow.Json

mutual

theorem merged_depth (value : Json) : value.merged.depth ≤ value.depth := by
  match value with
  | null => exact Nat.le_refl _
  | bool _ => exact Nat.le_refl _
  | integer _ => exact Nat.le_refl _
  | float _ => exact Nat.le_refl _
  | string _ => exact Nat.le_refl _
  | array items =>
      rw [merged, depth, depth]
      exact Nat.succ_le_succ (merged_items_depth items)
  | object entries =>
      rw [merged, depth, depth]
      refine Nat.succ_le_succ ((entries_depth_le_iff _ _).mpr fun entry member => ?_)
      obtain ⟨given, there, same⟩ := (Entries.merge_sound (mergedEntries entries)).2 entry member
      rw [same]
      exact (entries_depth_le_iff _ _).mp (merged_entries_depth entries) given there
termination_by structural value

theorem merged_items_depth (items : List Json) :
    itemsDepth (mergedItems items) ≤ itemsDepth items := by
  match items with
  | [] => exact Nat.le_refl _
  | item :: rest =>
      have first := merged_depth item
      have others := merged_items_depth rest
      rw [mergedItems, itemsDepth, itemsDepth]
      omega
termination_by structural items

theorem merged_entries_depth (entries : List (String × Json)) :
    entriesDepth (mergedEntries entries) ≤ entriesDepth entries := by
  match entries with
  | [] => exact Nat.le_refl _
  | (key, value) :: rest =>
      have first := merged_depth value
      have others := merged_entries_depth rest
      rw [mergedEntries, entriesDepth, entriesDepth]
      omega
termination_by structural entries

end

def Reached (level depth : Nat) : Prop :=
  depth = 0 ∨ depth + level < jsonNestingLimit

theorem level_checked (start : List Char) (level : Nat) (inside : checkLevel start level = .ok ()) :
    level < jsonNestingLimit := by
  unfold checkLevel at inside
  split at inside
  · assumption
  · cases inside

namespace Written

mutual

-- Arrays and objects are numbered from the level around them on, and nothing else has parts.
def Levelled (level : Nat) (written : Written) : Prop :=
  match written with
  | scalar _ reading _ => ∀ value, reading = .ok value → value.depth = 0
  | array _ number items _ => number = level + 1 ∧ ItemsLevelled (level + 1) items
  | object _ number entries _ => number = level + 1 ∧ EntriesLevelled (level + 1) entries
  | absent _ _ => True
termination_by structural written

def ItemsLevelled (level : Nat) (items : List Written) : Prop :=
  match items with
  | [] => True
  | item :: rest => Levelled level item ∧ ItemsLevelled level rest
termination_by structural items

def EntriesLevelled (level : Nat) (entries : List (Key × Written)) : Prop :=
  match entries with
  | [] => True
  | (_, value) :: rest => Levelled level value ∧ EntriesLevelled level rest
termination_by structural entries

end

theorem levelled_invariant : ReaderInvariant Levelled ItemsLevelled EntriesLevelled where
  absent _ _ _ := trivial
  scalar _ _ _ _ plain value read := (plain value read).flat
  array _ _ _ _ levelled := ⟨rfl, levelled⟩
  object _ _ _ _ levelled := ⟨rfl, levelled⟩
  noItem _ := trivial
  item _ _ _ first rest := ⟨first, rest⟩
  noEntry _ := trivial
  entry _ _ _ _ first rest := ⟨first, rest⟩

theorem text_levelled (text : String) : (ofText text).Levelled 0 :=
  (reader_keeps levelled_invariant _).1 _ _

mutual

theorem contents_reached (written : Written) (level : Nat) (levelled : written.Levelled level)
    (value : Json) (read : written.contents = .ok value) : Reached level value.depth := by
  match written with
  | scalar start reading passing => exact Or.inl (levelled value read)
  | absent reading passing => cases read
  | array start number items ending =>
      obtain ⟨rfl, parts⟩ := levelled
      simp only [contents, bind_ok_iff] at read
      obtain ⟨_, inside, values, itemsRead, _, _, same⟩ := read
      cases same
      have reached := item_contents_reached items (level + 1) parts values itemsRead
      have within := level_checked start (level + 1) inside
      rw [Reached] at reached ⊢
      rw [depth]
      omega
  | object start number entries ending =>
      obtain ⟨rfl, parts⟩ := levelled
      simp only [contents, bind_ok_iff] at read
      obtain ⟨_, inside, values, entriesRead, _, _, same⟩ := read
      cases same
      have reached := entry_contents_reached entries (level + 1) parts values entriesRead
      have within := level_checked start (level + 1) inside
      rw [Reached] at reached ⊢
      rw [depth]
      omega
termination_by structural written

theorem item_contents_reached (items : List Written) (level : Nat)
    (levelled : ItemsLevelled level items) (values : List Json)
    (read : itemContents items = .ok values) : Reached level (itemsDepth values) := by
  match items with
  | [] =>
      cases read
      exact Or.inl rfl
  | item :: rest =>
      simp only [itemContents, bind_ok_iff] at read
      obtain ⟨first, firstRead, others, othersRead, same⟩ := read
      cases same
      have head := contents_reached item level levelled.1 first firstRead
      have tail := item_contents_reached rest level levelled.2 others othersRead
      rw [Reached] at head tail ⊢
      rw [itemsDepth]
      omega
termination_by structural items

theorem entry_contents_reached (entries : List (Key × Written)) (level : Nat)
    (levelled : EntriesLevelled level entries) (values : List (String × Json))
    (read : entryContents entries = .ok values) : Reached level (entriesDepth values) := by
  match entries with
  | [] =>
      cases read
      exact Or.inl rfl
  | (key, value) :: rest =>
      simp only [entryContents, bind_ok_iff] at read
      obtain ⟨name, _, first, firstRead, others, othersRead, same⟩ := read
      cases same
      have head := contents_reached value level levelled.1 first firstRead
      have tail := entry_contents_reached rest level levelled.2 others othersRead
      rw [Reached] at head tail ⊢
      rw [entriesDepth]
      omega
termination_by structural entries

end

end Written

open Written

def Source.InText (level : Nat) (source : Source) : Prop :=
  ∃ written, source = .written written ∧ written.Levelled level ∧ written.Sound

theorem text_in_text (text : String) : Source.InText 0 (.written (ofText text)) :=
  ⟨_, rfl, text_levelled text, (reader_sound _).1 _ _⟩

theorem items_in_text (level : Nat) (items : List Written) (levelled : ItemsLevelled level items)
    (sound : ItemsSound items) : ∀ item ∈ items.map Source.written, item.InText level := by
  induction items with
  | nil => simp
  | cons item rest ih =>
      rw [List.map_cons, List.forall_mem_cons]
      exact ⟨⟨item, rfl, levelled.1, sound.1⟩, ih levelled.2 sound.2⟩

theorem members_in_text (level : Nat) (entries : List (Key × Written))
    (levelled : EntriesLevelled level entries) (sound : EntriesSound entries) :
    ∀ member ∈ entries.map (fun entry => Member.ofKey entry.1 entry.2),
      member.value.InText level := by
  induction entries with
  | nil => simp
  | cons entry rest ih =>
      rcases entry with ⟨key, value⟩
      rw [List.map_cons, List.forall_mem_cons]
      exact ⟨⟨value, rfl, levelled.1, sound.1⟩, ih levelled.2 sound.2⟩

theorem text_encloses (level : Nat) :
    Encloses (Source.InText level) (Source.InText (level + 1)) where
  items source inside items found := by
    obtain ⟨written, rfl, levelled, sound⟩ := inside
    cases written with
    | array start number parts ending =>
        obtain ⟨rfl, within⟩ := levelled
        simp only [Source.items?, bind_ok_iff] at found
        obtain ⟨_, _, same⟩ := found
        cases same
        exact items_in_text (level + 1) parts within sound
    | _ => cases found
  members source inside members found := by
    obtain ⟨written, rfl, levelled, sound⟩ := inside
    cases written with
    | object start number parts ending =>
        obtain ⟨rfl, within⟩ := levelled
        simp only [Source.members?, bind_ok_iff] at found
        obtain ⟨_, _, same⟩ := found
        cases same
        exact members_in_text (level + 1) parts within sound
    | _ => cases found

structure Nested (level : Nat) (value : Json) : Prop where
  proper : value.wellFormed = true
  reached : Reached level value.depth

theorem any_nested (level : Nat) :
    YieldsOn (Source.InText level) decodeAny (Nested level) := by
  intro source inside value decoded
  obtain ⟨written, rfl, levelled, sound⟩ := inside
  obtain ⟨contents, found, rfl⟩ := (map_ok_iff _ _ _).mp decoded
  have read := (map_error_ok_iff _ _ _).mp found
  have reached := contents_reached written level levelled contents read
  have shallower := merged_depth contents
  refine ⟨contents_well_formed written sound contents read, ?_⟩
  rw [Reached] at reached ⊢
  omega

end BrowserFlow.Json
