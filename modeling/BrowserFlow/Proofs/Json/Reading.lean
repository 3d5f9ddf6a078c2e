import BrowserFlow.Json.Written
import BrowserFlow.Proofs.Json.WellFormed
import BrowserFlow.Proofs.Success
/-! What is read from a text is well formed: numbers that are too large are read as doubles, and keys that
are written twice are merged. -/
set_option autoImplicit false

namespace BrowserFlow.Json

theorem read_word_value (value found : Json) (letters chars rest : List Char)
    (read : readWord value letters chars = .ok (found, rest)) : found = value := by
  induction letters generalizing chars with
  | nil =>
      cases read
      rfl
  | cons expected word ih =>
      cases chars with
      | nil => cases read
      | cons c tail =>
          rw [readWord] at read
          split at read
          · exact ih tail read
          · cases read

structure Plain (value : Json) : Prop where
  proper : value.wellFormed = true
  flat : value.depth = 0

theorem double_plain (numeral : Numeral) (rest : List Char) (value : Json)
    (read : numeral.double rest = .ok value) : Plain value := by
  unfold Numeral.double at read
  split at read <;> cases read
  exact ⟨rfl, rfl⟩

theorem numeral_plain (numeral : Numeral) (rest : List Char) (value : Json)
    (read : numeral.value rest = .ok value) : Plain value := by
  have whole : ∀ (signed : Int) (plain : Bool),
      (if Number.fitsInteger signed && plain then .ok (integer signed)
        else numeral.double rest) = .ok value → Plain value := by
    intro signed plain read
    split at read
    · rename_i fits
      cases read
      exact ⟨(Bool.and_eq_true_iff.mp fits).1, rfl⟩
    · exact double_plain numeral rest value read
  unfold Numeral.value at read
  split at read
  · exact whole _ _ read
  · exact double_plain numeral rest value read

namespace Written

mutual

-- The readings of all scalars are well formed; what follows needs nothing else of the reader.
def Sound (written : Written) : Prop :=
  match written with
  | scalar _ reading _ => ∀ value, reading = .ok value → value.merged.wellFormed = true
  | array _ _ items _ => ItemsSound items
  | object _ _ entries _ => EntriesSound entries
  | absent _ _ => True
termination_by structural written

def ItemsSound (items : List Written) : Prop :=
  match items with
  | [] => True
  | item :: rest => Sound item ∧ ItemsSound rest
termination_by structural items

def EntriesSound (entries : List (Key × Written)) : Prop :=
  match entries with
  | [] => True
  | (_, value) :: rest => Sound value ∧ EntriesSound rest
termination_by structural entries

end

def IsScalar (written : Written) (start : List Char) : Prop :=
  ∃ reading passing, written = scalar start reading passing ∧ ∀ value, reading = .ok value → Plain value

theorem word_scalar (start letters rest : List Char) (value : Json) (plain : Plain value) :
    IsScalar (word start value letters rest) start := by
  unfold word
  split
  · rename_i found tail read
    refine ⟨_, _, rfl, fun other same => ?_⟩
    cases same
    rw [read_word_value value found letters rest tail read]
    exact plain
  · exact ⟨_, _, rfl, nofun⟩

theorem number_scalar (start : List Char) (negative : Bool) (chars : List Char) :
    IsScalar (number start negative chars) start := by
  unfold number
  split
  · exact ⟨_, _, rfl, numeral_plain _ _⟩
  · exact ⟨_, _, rfl, nofun⟩

theorem string_scalar (start chars : List Char) : IsScalar (Written.string start chars) start := by
  unfold Written.string
  split
  · refine ⟨_, _, rfl, fun value same => ?_⟩
    cases same
    exact ⟨rfl, rfl⟩
  · exact ⟨_, _, rfl, nofun⟩

theorem scalar_cases (start : List Char) :
    IsScalar (ofScalar start) start ∨ ∃ error, ofScalar start = missing error := by
  unfold ofScalar
  split
  · exact Or.inr ⟨_, rfl⟩
  · exact Or.inl (word_scalar _ _ _ _ ⟨rfl, rfl⟩)
  · exact Or.inl (word_scalar _ _ _ _ ⟨rfl, rfl⟩)
  · exact Or.inl (word_scalar _ _ _ _ ⟨rfl, rfl⟩)
  · exact Or.inl (number_scalar _ _ _)
  · exact Or.inl (string_scalar _ _)
  · split
    · exact Or.inl (number_scalar _ _ _)
    · exact Or.inr ⟨_, rfl⟩

def behindKey (fuel level : Nat) : Except SyntaxError (List Char) → Written
  | .error error => missing error
  | .ok rest =>
    match skipSpace rest with
    | ':' :: rest => ofChars fuel level rest
    | [] => missing (.ahead .endInObject [])
    | rest => missing (.ahead .expectedColon rest)

section Reader

variable (value : Nat → Written → Prop) (items : Nat → List Written → Prop)
  (entries : Nat → List (Key × Written) → Prop)

-- A property of values, of the items of an array and of the entries of an object, at their level, that
-- plain scalars have and that arrays and objects have with their parts.
structure ReaderInvariant : Prop where
  absent : ∀ level reading passing, value level (absent reading passing)
  scalar : ∀ level start reading passing, (∀ found, reading = .ok found → Plain found) →
    value level (scalar start reading passing)
  array : ∀ level start parts ending, items (level + 1) parts →
    value level (array start (level + 1) parts ending)
  object : ∀ level start parts ending, entries (level + 1) parts →
    value level (object start (level + 1) parts ending)
  noItem : ∀ level, items level []
  item : ∀ level first rest, value level first → items level rest → items level (first :: rest)
  noEntry : ∀ level, entries level []
  entry : ∀ level key first rest, value level first → entries level rest →
    entries level ((key, first) :: rest)

variable {value items entries} (invariant : ReaderInvariant value items entries)

include invariant

theorem behind_key_keeps (fuel level : Nat)
    (values : ∀ level chars, value level (ofChars fuel level chars))
    (passed : Except SyntaxError (List Char)) : value level (behindKey fuel level passed) := by
  unfold behindKey
  split
  · exact invariant.absent _ _ _
  · split
    · exact values _ _
    · exact invariant.absent _ _ _
    · exact invariant.absent _ _ _

theorem reader_keeps (fuel : Nat) :
    (∀ level chars, value level (ofChars fuel level chars)) ∧
      (∀ level chars, items level (itemsOfChars fuel level chars).1) ∧
      ∀ level chars, entries level (entriesOfChars fuel level chars).1 := by
  induction fuel with
  | zero =>
      exact ⟨fun _ _ => invariant.absent _ _ _, fun _ _ => invariant.noItem _,
        fun _ _ => invariant.noEntry _⟩
  | succ fuel ih =>
      obtain ⟨values, others, rest⟩ := ih
      have one : ∀ level chars, items level [ofChars fuel level chars] := fun level chars =>
        invariant.item level _ _ (values level chars) (invariant.noItem level)
      refine ⟨fun level chars => ?_, fun level chars => ?_, fun level chars => ?_⟩
      · unfold ofChars
        dsimp only
        split
        · split
          · exact invariant.array _ _ _ _ (invariant.noItem _)
          · exact invariant.array _ _ _ _ (invariant.noItem _)
          · exact invariant.array _ _ _ _ (others _ _)
        · split
          · exact invariant.object _ _ _ _ (invariant.noEntry _)
          · exact invariant.object _ _ _ _ (invariant.noEntry _)
          · exact invariant.object _ _ _ _ (rest _ _)
        · rcases scalar_cases (skipSpace chars) with ⟨reading, passing, same, plain⟩ | ⟨error, same⟩
          · rw [same]
            exact invariant.scalar _ _ _ _ plain
          · rw [same]
            exact invariant.absent _ _ _
      · unfold itemsOfChars
        dsimp only
        split
        · exact one _ _
        · split
          · exact one _ _
          · split
            · exact one _ _
            · exact one _ _
            · exact invariant.item _ _ _ (values _ _) (others _ _)
          · exact one _ _
          · exact one _ _
      · have first := behind_key_keeps invariant fuel level values
        have only : ∀ key passed, entries level [(key, behindKey fuel level passed)] :=
          fun key passed => invariant.entry level key _ _ (first passed) (invariant.noEntry level)
        unfold entriesOfChars
        dsimp only
        split
        · split
          · exact only _ _
          · split
            · exact only _ _
            · split
              · exact only _ _
              · exact only _ _
              · exact invariant.entry _ _ _ _ (first _) (rest _ _)
            · exact only _ _
            · exact only _ _
        · exact invariant.noEntry _

end Reader

theorem sound_invariant :
    ReaderInvariant (fun _ => Sound) (fun _ => ItemsSound) fun _ => EntriesSound where
  absent _ _ _ := trivial
  scalar _ _ _ _ plain value read := by
    have proper := (plain value read).proper
    rw [merged_well_formed value proper]
    exact proper
  array _ _ _ _ sound := sound
  object _ _ _ _ sound := sound
  noItem _ := trivial
  item _ _ _ first rest := ⟨first, rest⟩
  noEntry _ := trivial
  entry _ _ _ _ first rest := ⟨first, rest⟩

theorem reader_sound (fuel : Nat) :
    (∀ level chars, (ofChars fuel level chars).Sound) ∧
      (∀ level chars, ItemsSound (itemsOfChars fuel level chars).1) ∧
      ∀ level chars, EntriesSound (entriesOfChars fuel level chars).1 :=
  reader_keeps sound_invariant fuel

mutual

theorem contents_well_formed (written : Written) (sound : written.Sound) (value : Json)
    (read : written.contents = .ok value) : value.merged.wellFormed = true := by
  match written with
  | scalar start reading passing => exact sound value read
  | absent reading passing => cases read
  | array start level items ending =>
      simp only [contents, bind_ok_iff] at read
      obtain ⟨_, _, values, itemsRead, _, _, same⟩ := read
      cases same
      exact item_contents_well_formed items sound values itemsRead
  | object start level entries ending =>
      simp only [contents, bind_ok_iff] at read
      obtain ⟨_, _, values, entriesRead, _, _, same⟩ := read
      cases same
      have each := entry_contents_well_formed entries sound values entriesRead
      obtain ⟨distinct, known⟩ := Entries.merge_sound (mergedEntries values)
      rw [merged, object_well_formed_iff]
      refine ⟨distinct, fun entry member => ?_⟩
      obtain ⟨given, there, same⟩ := known entry member
      rw [same]
      exact each given there
termination_by structural written

theorem item_contents_well_formed (items : List Written) (sound : ItemsSound items)
    (values : List Json) (read : itemContents items = .ok values) :
    itemsWellFormed (mergedItems values) = true := by
  match items with
  | [] =>
      cases read
      rfl
  | item :: rest =>
      simp only [itemContents, bind_ok_iff] at read
      obtain ⟨first, firstRead, others, othersRead, same⟩ := read
      cases same
      rw [mergedItems, itemsWellFormed, contents_well_formed item sound.1 first firstRead,
        item_contents_well_formed rest sound.2 others othersRead]
      rfl
termination_by structural items

theorem entry_contents_well_formed (entries : List (Key × Written)) (sound : EntriesSound entries)
    (values : List (String × Json)) (read : entryContents entries = .ok values) :
    ∀ entry ∈ mergedEntries values, entry.2.wellFormed = true := by
  match entries with
  | [] =>
      cases read
      simp [mergedEntries]
  | (key, value) :: rest =>
      simp only [entryContents, bind_ok_iff] at read
      obtain ⟨name, _, first, firstRead, others, othersRead, same⟩ := read
      cases same
      have head := contents_well_formed value sound.1 first firstRead
      have tail := entry_contents_well_formed rest sound.2 others othersRead
      intro entry member
      cases List.mem_cons.mp member with
      | inl here => exact here ▸ head
      | inr later => exact tail entry later
termination_by structural entries

end

end Written

theorem read_well_formed (text : String) (value : Json) (found : read text = .ok value) :
    value.wellFormed = true := by
  simp only [read, bind_ok_iff] at found
  obtain ⟨contents, contentsRead, _, _, same⟩ := found
  cases same
  exact Written.contents_well_formed _ ((Written.reader_sound _).1 _ _) contents contentsRead

end BrowserFlow.Json
