import BrowserFlow.Proofs.Json.Decoding
/-! What decoders give. Whatever the source, a value that is decoded as it stands is settled: merging its
keys once more changes nothing. What is decoded by parts has the properties of its parts. -/
set_option autoImplicit false

namespace BrowserFlow.Json

def Settled (value : Json) : Prop :=
  value.merged = value

theorem merged_items_of_settled (items : List Json) (each : ∀ item ∈ items, Settled item) :
    mergedItems items = items := by
  induction items with
  | nil => rfl
  | cons item rest ih =>
      rw [List.forall_mem_cons] at each
      rw [mergedItems, each.1, ih each.2]

theorem merged_entries_of_settled (entries : Entries Json) (each : ∀ entry ∈ entries, Settled entry.2) :
    mergedEntries entries = entries := by
  induction entries with
  | nil => rfl
  | cons entry rest ih =>
      rw [List.forall_mem_cons] at each
      rw [mergedEntries, each.1, ih each.2]

theorem object_settled (entries : Entries Json) (table : Entries.Table Settled entries) :
    Settled (object entries) := by
  rw [Settled, merged, merged_entries_of_settled entries table.2,
    Entries.merge_distinct entries table.1]

mutual

theorem merged_settled (value : Json) : Settled value.merged := by
  match value with
  | null => rfl
  | bool _ => rfl
  | integer _ => rfl
  | float _ => rfl
  | string _ => rfl
  | array items =>
      rw [merged, Settled, merged, merged_items_of_settled _ (merged_items_settled items)]
  | object entries =>
      rw [merged]
      exact object_settled _ (Entries.merge_table Settled _ (merged_entries_settled entries))
termination_by structural value

theorem merged_items_settled (items : List Json) : ∀ item ∈ mergedItems items, Settled item := by
  match items with
  | [] => simp [mergedItems]
  | item :: rest =>
      rw [mergedItems, List.forall_mem_cons]
      exact ⟨merged_settled item, merged_items_settled rest⟩
termination_by structural items

theorem merged_entries_settled (entries : List (String × Json)) :
    ∀ entry ∈ mergedEntries entries, Settled entry.2 := by
  match entries with
  | [] => simp [mergedEntries]
  | (key, value) :: rest =>
      rw [mergedEntries, List.forall_mem_cons]
      exact ⟨merged_settled value, merged_entries_settled rest⟩
termination_by structural entries

end

theorem settled_items (items : List Json) (settled : Settled (array items)) :
    ∀ item ∈ items, Settled item := by
  rw [Settled, merged, array.injEq] at settled
  rw [← settled]
  exact merged_items_settled items

theorem settled_entries (entries : Entries Json) (settled : Settled (object entries)) :
    ∀ entry ∈ entries, Settled entry.2 := by
  rw [Settled, merged, object.injEq] at settled
  rw [← settled]
  exact (Entries.merge_table Settled _ (merged_entries_settled entries)).2

theorem merged_null (value : Json) : value.merged.isNull = value.isNull := by
  cases value <;> rfl

variable {α β : Type}

def Yields (decode : Decoder α) (property : α → Prop) : Prop :=
  ∀ source value, decode source = .ok value → property value

def YieldsOn (inside : Source → Prop) (decode : Decoder α) (property : α → Prop) : Prop :=
  ∀ source, inside source → ∀ value, decode source = .ok value → property value

theorem Yields.on {decode : Decoder α} {property : α → Prop} (yields : Yields decode property)
    (inside : Source → Prop) : YieldsOn inside decode property :=
  fun source _ value decoded => yields source value decoded

structure Encloses (outer inner : Source → Prop) : Prop where
  items : ∀ source, outer source → ∀ items, source.items? = .ok (some items) →
    ∀ item ∈ items.parts, inner item
  members : ∀ source, outer source → ∀ members, source.members? = .ok (some members) →
    ∀ member ∈ members.parts, inner member.value

def anySource (_ : Source) : Prop :=
  True

theorem any_encloses : Encloses anySource anySource :=
  ⟨fun _ _ _ _ _ _ => trivial, fun _ _ _ _ _ _ => trivial⟩

theorem YieldsOn.anywhere {decode : Decoder α} {property : α → Prop}
    (yields : YieldsOn anySource decode property) : Yields decode property :=
  fun source value decoded => yields source trivial value decoded

theorem any_yields : Yields decodeAny Settled := by
  intro source value decoded
  obtain ⟨contents, _, rfl⟩ := (map_ok_iff _ _ _).mp decoded
  exact merged_settled contents

theorem array_contents (start : List Char) (level : Nat) (items : List Written) (ending : Ending)
    (value : Json) (found : Source.contents (.written (.array start level items ending)) = .ok value) :
    ∃ values, value = array values := by
  have read := (map_error_ok_iff _ _ _).mp found
  simp only [Written.contents, bind_ok_iff] at read
  obtain ⟨_, _, values, _, _, _, same⟩ := read
  cases same
  exact ⟨values, rfl⟩

theorem object_contents (start : List Char) (level : Nat) (entries : List (Key × Written)) (ending : Ending)
    (value : Json) (found : Source.contents (.written (.object start level entries ending)) = .ok value) :
    ∃ pairs, value = object pairs := by
  have read := (map_error_ok_iff _ _ _).mp found
  simp only [Written.contents, bind_ok_iff] at read
  obtain ⟨_, _, pairs, _, _, _, same⟩ := read
  cases same
  exact ⟨pairs, rfl⟩

theorem contents_null (source : Source) (value : Json) (found : source.contents = .ok value) :
    source.isNull = value.isNull := by
  match source with
  | .given _ =>
      cases found
      rfl
  | .held _ =>
      cases found
      rfl
  | .written (.scalar start (.ok reading) passing) =>
      cases found
      rfl
  | .written (.scalar start (.error error) passing) => cases found
  | .written (.array start level items ending) =>
      obtain ⟨values, rfl⟩ := array_contents start level items ending value found
      rfl
  | .written (.object start level entries ending) =>
      obtain ⟨pairs, rfl⟩ := object_contents start level entries ending value found
      rfl
  | .written (.absent reading passing) => cases found

theorem contents_face (source : Source) (value : Json) (found : source.contents = .ok value)
    (flat : value.depth = 0) : source.face = .ok value := by
  match source with
  | .given _ => exact found
  | .held _ => exact found
  | .written (.scalar start reading passing) => exact found
  | .written (.array start level items ending) =>
      obtain ⟨values, rfl⟩ := array_contents start level items ending value found
      cases flat
  | .written (.object start level entries ending) =>
      obtain ⟨pairs, rfl⟩ := object_contents start level entries ending value found
      cases flat
  | .written (.absent reading passing) => cases found

theorem natural_faced (limit : Nat) (expected : String) (source : Source) (value : Nat)
    (found : source.face = .ok (natural value)) (inside : value < limit) :
    decodeNatural limit expected source = .ok value := by
  have fits : (decide ((0 : Int) ≤ value) && decide ((value : Int) < limit)) = true := by
    simp only [Bool.and_eq_true, decide_eq_true_iff]
    omega
  rw [decodeNatural, found]
  simp only [natural, bind, Except.bind, fits, if_true]
  rfl

-- A value that is decoded as it stands is null only where it is null in the source.
theorem any_null (source : Source) (value : Json) (decoded : decodeAny source = .ok value) :
    value.isNull = source.isNull := by
  obtain ⟨contents, found, rfl⟩ := (map_ok_iff _ _ _).mp decoded
  rw [merged_null, contents_null source contents found]

theorem mismatch_fails (source : Source) (expected : String) (value : α) :
    source.mismatch expected ≠ .ok value := by
  intro found
  simp only [Source.mismatch, bind_ok_iff] at found
  obtain ⟨_, _, refused⟩ := found
  cases refused

section Parts

variable {outer inner : Source → Prop} {decode : Decoder α} {property : α → Prop}

theorem items_yield (yields : YieldsOn inner decode property) (sources : List Source)
    (inside : ∀ source ∈ sources, inner source) (items : List α)
    (decoded : decodeItems decode sources = .ok items) : ∀ item ∈ items, property item := by
  induction sources generalizing items with
  | nil =>
      cases decoded
      simp
  | cons source rest ih =>
      rw [List.forall_mem_cons] at inside
      simp only [decodeItems, bind_ok_iff, map_error_ok_iff] at decoded
      obtain ⟨first, firstDecoded, others, othersDecoded, same⟩ := decoded
      cases same
      rw [List.forall_mem_cons]
      exact ⟨yields source inside.1 first firstDecoded, ih inside.2 others othersDecoded⟩

theorem list_yields_on (encloses : Encloses outer inner) (yields : YieldsOn inner decode property) :
    YieldsOn outer (decodeList decode) fun items => ∀ item ∈ items, property item := by
  intro source inside items decoded
  simp only [decodeList, bind_ok_iff] at decoded
  obtain ⟨parts, partsFound, decoded⟩ := decoded
  cases parts with
  | none => exact absurd decoded (mismatch_fails source _ items)
  | some parts =>
      simp only [bind_ok_iff] at decoded
      obtain ⟨found, itemsDecoded, _, _, same⟩ := decoded
      cases same
      exact items_yield yields parts.parts (encloses.items source inside parts partsFound) items
        itemsDecoded

theorem pairs_yield (yields : YieldsOn inner decode property) (members : List Member)
    (inside : ∀ member ∈ members, inner member.value) (entries : Entries α)
    (decoded : decodePairs decode members = .ok entries) :
    ∀ entry ∈ entries, property entry.2 := by
  induction members generalizing entries with
  | nil =>
      cases decoded
      simp
  | cons member rest ih =>
      rw [List.forall_mem_cons] at inside
      simp only [decodePairs, bind_ok_iff, map_error_ok_iff] at decoded
      obtain ⟨name, _, first, firstDecoded, others, othersDecoded, same⟩ := decoded
      cases same
      rw [List.forall_mem_cons]
      exact ⟨yields member.value inside.1 first firstDecoded, ih inside.2 others othersDecoded⟩

theorem table_yields_on (encloses : Encloses outer inner) (yields : YieldsOn inner decode property) :
    YieldsOn outer (decodeTable decode) (Entries.Table property) := by
  intro source inside entries decoded
  simp only [decodeTable, bind_ok_iff] at decoded
  obtain ⟨parts, partsFound, decoded⟩ := decoded
  cases parts with
  | none => exact absurd decoded (mismatch_fails source _ entries)
  | some parts =>
      simp only [bind_ok_iff] at decoded
      obtain ⟨found, pairsDecoded, _, _, same⟩ := decoded
      cases same
      exact Entries.merge_table property found (pairs_yield yields parts.parts
        (encloses.members source inside parts partsFound) found pairsDecoded)

end Parts

theorem list_yields (decode : Decoder α) (property : α → Prop) (yields : Yields decode property) :
    Yields (decodeList decode) fun items => ∀ item ∈ items, property item :=
  (list_yields_on any_encloses (yields.on anySource)).anywhere

theorem table_yields (decode : Decoder α) (property : α → Prop) (yields : Yields decode property) :
    Yields (decodeTable decode) (Entries.Table property) :=
  (table_yields_on any_encloses (yields.on anySource)).anywhere

-- Readers of fields taken apart one after the other: what follows for all that they make follows
-- for all that their parts make.
theorem Fields.made_map_iff (f : α → β) (x : Fields α) (slots : Slots) (property : β → Prop) :
    (∀ result, Fields.Make (f <$> x) slots result → property result) ↔
      ∀ value, x.Make slots value → property (f value) := by
  have made : ∀ result, Fields.Make (f <$> x) slots result ↔
      ∃ value, x.Make slots value ∧ f value = result := by
    intro result
    change Fields.both (fun _ => .ok f) x slots = .ok result ↔ _
    unfold Fields.both Fields.Make
    cases x slots <;> simp
  simp only [made]
  constructor
  · exact fun all value given => all _ ⟨value, given, rfl⟩
  · rintro all _ ⟨value, given, rfl⟩
    exact all value given

theorem Fields.made_and_iff (f : Fields (α → β)) (x : Fields α) (slots : Slots)
    (property : β → Prop) :
    (∀ result, Fields.Make (f <*> x) slots result → property result) ↔
      ∀ function, f.Make slots function → ∀ value, x.Make slots value → property (function value) := by
  have made : ∀ result, Fields.Make (f <*> x) slots result ↔
      ∃ function value, f.Make slots function ∧ x.Make slots value ∧ function value = result := by
    intro result
    change Fields.both f x slots = .ok result ↔ _
    unfold Fields.both Fields.Make
    cases f slots <;> cases x slots <;> simp
  simp only [made]
  constructor
  · exact fun all function first value second => all _ ⟨function, value, first, second, rfl⟩
  · rintro all _ ⟨function, value, first, second, rfl⟩
    exact all function first value second

theorem fields_read_made (fields : Fields α) (slots : Slots) (stray : Option (Nat × DecodeError))
    (value : α) (read : fields.read slots stray = .ok value) : fields.Make slots value := by
  unfold Fields.read at read
  split at read
  · rename_i made
    cases read
    exact made
  · cases read
  · cases read
  · cases read

def Slots.From (inner : Source → Prop) (slots : Slots) : Prop :=
  ∀ slot ∈ slots.slots, inner slot.value

theorem member_slots_from (inner : Source → Prop) (number : Nat) (members : List Member)
    (inside : ∀ member ∈ members, inner member.value) :
    ∀ slot ∈ memberSlots number members, inner slot.value := by
  induction members generalizing number with
  | nil => simp [memberSlots]
  | cons member rest ih =>
      rcases member with ⟨name, repetition, value⟩
      rw [List.forall_mem_cons] at inside
      cases name with
      | ok name =>
          rw [memberSlots, List.forall_mem_cons]
          exact ⟨inside.1, ih (number + 1) inside.2⟩
      | error error => exact ih (number + 1) inside.2

theorem item_slots_from (inner : Source → Prop) (number : Nat) (names : List String)
    (items : List Source) (inside : ∀ item ∈ items, inner item) :
    ∀ slot ∈ itemSlots number names items, inner slot.value := by
  induction items generalizing number names with
  | nil => cases names <;> simp [itemSlots]
  | cons item rest ih =>
      rw [List.forall_mem_cons] at inside
      cases names with
      | nil => simp [itemSlots]
      | cons name names =>
          rw [itemSlots, List.forall_mem_cons]
          exact ⟨inside.1, ih (number + 1) names inside.2⟩

theorem record_yields_on {outer inner : Source → Prop} (encloses : Encloses outer inner)
    (expected : String) (names : List String) (fields : Fields α) (property : α → Prop)
    (made : ∀ slots, Slots.From inner slots → ∀ value, fields.Make slots value → property value) :
    YieldsOn outer (record expected names fields) property := by
  intro source inside value decoded
  simp only [record, bind_ok_iff] at decoded
  obtain ⟨members, membersFound, items, itemsFound, decoded⟩ := decoded
  match members, items with
  | some members, _ =>
      refine made _ ?_ value (fields_read_made fields _ _ value decoded)
      exact member_slots_from inner 0 _ (encloses.members source inside members membersFound)
  | none, some items =>
      refine made _ ?_ value (fields_read_made fields _ _ value decoded)
      exact item_slots_from inner 0 names _ (encloses.items source inside items itemsFound)
  | none, none => exact absurd decoded (mismatch_fails source expected value)

theorem record_yields (expected : String) (names : List String) (fields : Fields α)
    (property : α → Prop) (made : ∀ slots value, fields.Make slots value → property value) :
    Yields (record expected names fields) property :=
  (record_yields_on any_encloses expected names fields property fun slots _ => made slots).anywhere

theorem required_yields {decode : Decoder α} {property : α → Prop} (yields : Yields decode property)
    {name : String} {slots : Slots} {value : α} (made : (required name decode).Make slots value) :
    property value := by
  unfold Fields.Make required at made
  split at made
  · exact yields _ value ((map_error_ok_iff _ _ _).mp made)
  · cases made

theorem defaulted_yields_on {inner : Source → Prop} {decode : Decoder α} {property : α → Prop}
    (yields : YieldsOn inner decode property) {name : String} {slots : Slots}
    (inside : Slots.From inner slots) {value absent : α} (default : property absent)
    (made : (defaulted name absent decode).Make slots value) : property value := by
  unfold Fields.Make defaulted at made
  split at made
  · rename_i slot found
    exact yields slot.value (inside slot (List.mem_of_find?_eq_some found)) value
      ((map_error_ok_iff _ _ _).mp made)
  · cases made
    exact default

theorem defaulted_yields {decode : Decoder α} {property : α → Prop} (yields : Yields decode property)
    {name : String} {absent : α} {slots : Slots} {value : α} (default : property absent)
    (made : (defaulted name absent decode).Make slots value) : property value :=
  defaulted_yields_on (yields.on anySource) (fun _ _ => trivial) default made

theorem optional_yields {decode : Decoder α} {property : α → Prop}
    (yields : ∀ source value, source.isNull = false → decode source = .ok value → property value)
    {name : String} {slots : Slots} {value : Option α}
    (made : (optional name decode).Make slots value) :
    ∀ found ∈ value, property found := by
  have inner : Yields (decodeOption decode) fun value => ∀ found ∈ value, property found := by
    intro source value decoded found there
    unfold decodeOption at decoded
    split at decoded
    · cases decoded
      cases there
    · rename_i somewhat
      obtain ⟨inside, decodedInside, rfl⟩ := (map_ok_iff _ _ _).mp decoded
      cases there
      exact yields source found (by simpa using somewhat) decodedInside
  exact defaulted_yields inner (by simp) made

theorem kinds_yield (expected : String) (variants : List (String × Decoder α)) (property : α → Prop)
    (each : ∀ variant ∈ variants, Yields variant.2 property) :
    Yields (decodeKinds expected variants) property := by
  intro source value decoded
  simp only [decodeKinds, bind_ok_iff] at decoded
  obtain ⟨⟨kind, others⟩, _, decoded⟩ := decoded
  simp only at decoded
  split at decoded
  · rename_i decode found
    exact each (kind, decode) (Entries.find_member kind decode variants found) _ value decoded
  · cases decoded

def Choice.Yields (choice : Choice α) (property : α → Prop) : Prop :=
  match choice with
  | plain value => property value
  | carrying decode => Json.Yields decode property

theorem choose_yields (choices : List (String × Choice α)) (property : α → Prop)
    (each : ∀ choice ∈ choices, choice.2.Yields property) (word : Source) (payload : Option Source)
    (value : α) (chosen : choose choices word payload = .ok value) : property value := by
  simp only [choose, bind_ok_iff] at chosen
  obtain ⟨name, _, chosen⟩ := chosen
  split at chosen
  · rename_i choice found
    have yields := each (name, choice) (Entries.find_member name choice choices found)
    match choice, payload with
    | .plain found, none =>
        cases chosen
        exact yields
    | .plain found, some source =>
        obtain ⟨_, _, rfl⟩ := (map_ok_iff _ _ _).mp chosen
        exact yields
    | .carrying decode, some source => exact yields source value chosen
    | .carrying decode, none => cases chosen
  · cases chosen

theorem choice_yields (choices : List (String × Choice α)) (property : α → Prop)
    (each : ∀ choice ∈ choices, choice.2.Yields property) :
    Yields (decodeChoice choices) property := by
  have byValue : ∀ wrap found value, chooseByValue choices wrap found = .ok value → property value := by
    intro wrap found value chosen
    unfold chooseByValue at chosen
    split at chosen
    · exact choose_yields choices property each _ _ value chosen
    · exact choose_yields choices property each _ _ value chosen
    · cases chosen
    · cases chosen
  intro source value decoded
  match source with
  | .given found => exact byValue _ found value decoded
  | .held found => exact byValue _ found value decoded
  | .written found =>
      change chooseInText choices found = .ok value at decoded
      unfold chooseInText at decoded
      split at decoded
      · exact choose_yields choices property each _ _ value decoded
      · cases decoded
      · cases decoded
      · simp only [bind_ok_iff] at decoded
        obtain ⟨_, _, name, _, rest, _, other, chosen, _, _, same⟩ := decoded
        cases same
        exact choose_yields choices property each _ _ value chosen
      · cases decoded

end BrowserFlow.Json
