import BrowserFlow.Proofs.Json.Decoded
import BrowserFlow.Proofs.Json.Printed
/-! Decoding what holds a value. A source may hold a value as such or as a text that writes it; a decoder
reads a value if it gives the same result for every source that holds it. Records, lists, tables and choices
are read when their parts are. -/
set_option autoImplicit false

namespace BrowserFlow.Json

open Written

namespace Written

mutual

theorem writes_contents (written : Written) (value : Json) (writes : Writes written value) :
    written.contents = .ok value := by
  match written with
  | scalar start reading passing => exact writes.1
  | array start level items ending =>
      obtain ⟨inside, ⟨rest, rfl⟩, values, rfl, write⟩ := writes
      simp only [contents, checkLevel, if_pos inside, items_write_contents items values write,
        Ending.check]
      rfl
  | object start level entries ending =>
      obtain ⟨inside, ⟨rest, rfl⟩, members, rfl, write⟩ := writes
      simp only [contents, checkLevel, if_pos inside, entries_write_contents entries members write,
        Ending.check]
      rfl
  | absent reading passing => cases writes
termination_by structural written

theorem items_write_contents (items : List Written) (values : List Json)
    (write : ItemsWrite items values) : itemContents items = .ok values := by
  match items, values with
  | [], [] => rfl
  | item :: items, value :: values =>
      simp only [itemContents, writes_contents item value write.1,
        items_write_contents items values write.2]
      rfl
termination_by structural items

theorem entries_write_contents (entries : List (Key × Written)) (members : List (String × Json))
    (write : EntriesWrite entries members) : entryContents entries = .ok members := by
  match entries, members with
  | [], [] => rfl
  | (key, written) :: entries, (name, value) :: members =>
      obtain ⟨named, first, others⟩ := write
      simp only [entryContents, named, writes_contents written value first,
        entries_write_contents entries members others]
      rfl
termination_by structural entries

end

theorem writes_passed (written : Written) (value : Json) (writes : Writes written value) :
    ∃ rest, written.passed = .ok rest := by
  cases written with
  | scalar start reading passing => exact writes.2.2.1
  | array start level items ending =>
      obtain ⟨_, ⟨rest, rfl⟩, _⟩ := writes
      exact ⟨rest, rfl⟩
  | object start level entries ending =>
      obtain ⟨_, ⟨rest, rfl⟩, _⟩ := writes
      exact ⟨rest, rfl⟩
  | absent reading passing => cases writes

end Written

structure Printable (value : Json) : Prop where
  sized : ∀ number ∈ value.numbers, number.wellFormed = true
  shallow : value.depth < jsonNestingLimit

theorem Printable.item {items : List Json} {item : Json} (printable : Printable (array items))
    (member : item ∈ items) : Printable item := by
  have inside := (items_depth_le_iff items _).mp (Nat.le_refl _) item member
  have shallow := printable.shallow
  rw [depth] at shallow
  exact ⟨fun number there => printable.sized number
    ((item_numbers_iff items number).mpr ⟨item, member, there⟩), by omega⟩

theorem Printable.entry {entries : Entries Json} {entry : String × Json}
    (printable : Printable (object entries)) (member : entry ∈ entries) : Printable entry.2 := by
  have inside := (entries_depth_le_iff entries _).mp (Nat.le_refl _) entry member
  have shallow := printable.shallow
  rw [depth] at shallow
  exact ⟨fun number there => printable.sized number
    ((entry_numbers_iff entries number).mpr ⟨entry, member, there⟩), by omega⟩

theorem Printable.rest {entry : String × Json} {entries : Entries Json}
    (printable : Printable (object (entry :: entries))) : Printable (object entries) := by
  rcases entry with ⟨key, value⟩
  have shallow := printable.shallow
  rw [depth, entriesDepth] at shallow
  refine ⟨fun number there => printable.sized number (List.mem_append_right _ there), ?_⟩
  rw [depth]
  omega

namespace Source

-- The value that stands in a source. Texts count only where `texts` says so.
def Stands (texts : Bool) (source : Source) (value : Json) : Prop :=
  match source with
  | given found => found = value
  | held found => found = value
  | written found => texts = true ∧ Writes found value

structure Holds (texts : Bool) (source : Source) (value : Json) : Prop where
  stands : source.Stands texts value
  printable : Printable value

theorem Holds.contents {texts : Bool} {source : Source} {value : Json}
    (holds : source.Holds texts value) : source.contents = .ok value := by
  have stands := holds.stands
  cases source with
  | given found => rw [stands, Source.contents]
  | held found => rw [stands, Source.contents]
  | written found =>
      rw [Source.contents, writes_contents found value stands.2]
      rfl

theorem Holds.face {texts : Bool} {source : Source} {value : Json}
    (holds : source.Holds texts value) (flat : value.depth = 0) : source.face = .ok value :=
  contents_face source value holds.contents flat

theorem Holds.is_null {texts : Bool} {source : Source} {value : Json}
    (holds : source.Holds texts value) : source.isNull = value.isNull :=
  contents_null source value holds.contents

theorem Holds.calm {texts : Bool} {source : Source} {value : Json}
    (holds : source.Holds texts value) : source.passingFault? = none := by
  have stands := holds.stands
  cases source with
  | given found => rfl
  | held found => rfl
  | written found =>
      obtain ⟨rest, passed⟩ := writes_passed found value stands.2
      rw [passingFault?, passed]

theorem Holds.depth {texts : Bool} {source : Source} {value : Json}
    (holds : source.Holds texts value) : value.depth ≤ source.depth := by
  have stands := holds.stands
  cases source with
  | given found => exact Nat.le_of_eq (by rw [Source.depth, stands])
  | held found => exact Nat.le_of_eq (by rw [Source.depth, stands])
  | written found => exact Nat.le_of_lt holds.printable.shallow

theorem items_stand (items : List Written) (values : List Json) (write : ItemsWrite items values)
    (printable : ∀ value ∈ values, Printable value) :
    List.Forall₂ (Holds true) (items.map written) values := by
  induction items generalizing values with
  | nil =>
      cases values with
      | nil => exact .nil
      | cons value others => cases write
  | cons item rest ih =>
      cases values with
      | nil => cases write
      | cons value others =>
          rw [List.forall_mem_cons] at printable
          exact .cons ⟨⟨rfl, write.1⟩, printable.1⟩ (ih others write.2 printable.2)

theorem Holds.items {texts : Bool} {source : Source} {values : List Json}
    (holds : source.Holds texts (.array values)) :
    ∃ items closed, source.items? = .ok (some ⟨items, .ok (), closed⟩) ∧
      List.Forall₂ (Holds texts) items values := by
  have stands := holds.stands
  have printable : ∀ value ∈ values, Printable value := fun _ member => holds.printable.item member
  match source with
  | given found =>
      cases stands
      refine ⟨values.map given, none, rfl, List.forall₂_map_left_iff.mpr ?_⟩
      exact List.forall₂_same.mpr fun value member => ⟨rfl, printable value member⟩
  | held found =>
      cases stands
      refine ⟨values.map held, none, rfl, List.forall₂_map_left_iff.mpr ?_⟩
      exact List.forall₂_same.mpr fun value member => ⟨rfl, printable value member⟩
  | written (.scalar start reading passing) => cases stands.2.2.1
  | written (.array start level items ending) =>
      obtain ⟨rfl, inside, ⟨rest, rfl⟩, others, same, write⟩ := stands
      cases same
      refine ⟨items.map written, some ⟨rest, 0⟩, ?_, items_stand items values write printable⟩
      rw [items?, checkLevel, if_pos inside]
      rfl
  | written (.object start level entries ending) => obtain ⟨_, _, _, _, ⟨⟩, _⟩ := stands
  | written (.absent reading passing) => cases stands.2

theorem members_stand (entries : List (Key × Written)) (members : List (String × Json))
    (write : EntriesWrite entries members) (printable : ∀ entry ∈ members, Printable entry.2) :
    List.Forall₂ (Member.Holds (Holds true)) (entries.map fun entry => .ofKey entry.1 entry.2)
      members := by
  induction entries generalizing members with
  | nil =>
      cases members with
      | nil => exact .nil
      | cons member others => cases write
  | cons entry rest ih =>
      cases members with
      | nil => cases write
      | cons member others =>
          rcases entry with ⟨key, value⟩
          rcases member with ⟨name, found⟩
          obtain ⟨named, first, later⟩ := write
          rw [List.forall_mem_cons] at printable
          refine .cons ⟨?_, ⟨rfl, first⟩, printable.1⟩ (ih others later printable.2)
          simp only [Member.ofKey, named]
          rfl

theorem Holds.members {texts : Bool} {source : Source} {entries : Entries Json}
    (holds : source.Holds texts (.object entries)) :
    ∃ members closed, source.members? = .ok (some ⟨members, .ok (), closed⟩) ∧
      source.items? = .ok none ∧ List.Forall₂ (Member.Holds (Holds texts)) members entries := by
  have stands := holds.stands
  have printable : ∀ entry ∈ entries, Printable entry.2 := fun _ member =>
    holds.printable.entry member
  match source with
  | given found =>
      cases stands
      refine ⟨entries.map fun entry => ⟨.ok entry.1, none, given entry.2⟩, none, rfl, rfl,
        List.forall₂_map_left_iff.mpr ?_⟩
      exact List.forall₂_same.mpr fun entry member => ⟨rfl, rfl, printable entry member⟩
  | held found =>
      cases stands
      refine ⟨entries.map fun entry => ⟨.ok entry.1, none, held entry.2⟩, none, rfl, rfl,
        List.forall₂_map_left_iff.mpr ?_⟩
      exact List.forall₂_same.mpr fun entry member => ⟨rfl, rfl, printable entry member⟩
  | written (.scalar start reading passing) => cases stands.2.2.1
  | written (.array start level items ending) => obtain ⟨_, _, _, _, ⟨⟩, _⟩ := stands
  | written (.object start level found ending) =>
      obtain ⟨rfl, inside, ⟨rest, rfl⟩, others, same, write⟩ := stands
      cases same
      refine ⟨_, some ⟨rest, 0⟩, ?_, rfl, members_stand found entries write printable⟩
      rw [members?, checkLevel, if_pos inside]
      rfl
  | written (.absent reading passing) => cases stands.2

end Source

abbrev Reads {α : Type} (texts : Bool) (decode : Decoder α) (value : Json) (result : α) : Prop :=
  ReadsFrom (Source.Holds texts) decode value result

variable {α β : Type} {texts : Bool}

theorem map_read {decode : Decoder α} {value : Json} {result : α}
    (reads : Reads texts decode value result) (f : α → β) :
    Reads texts (fun source => (decode source).map f) value (f result) := by
  intro source holds
  simp only [reads source holds, Except.map]

theorem any_read (value : Json) (settled : Settled value) :
    Reads texts decodeAny value value := by
  intro source holds
  rw [decodeAny, holds.contents, Except.map, settled]

theorem text_read (text : String) : Reads texts decodeText (string text) text := by
  intro source holds
  rw [decodeText, holds.face rfl]
  rfl

theorem flag_read (flag : Bool) : Reads texts decodeFlag (bool flag) flag := by
  intro source holds
  rw [decodeFlag, holds.face rfl]
  rfl

theorem natural_read (limit : Nat) (expected : String) (number : Nat)
    (inside : number < Number.twoTo 64 → number < limit) :
    Reads texts (decodeNatural limit expected) (natural number) number := by
  intro source holds
  have sized := holds.printable.sized (natural number) (List.mem_singleton_self _)
  simp only [natural, wellFormed, Number.fitsInteger, Bool.and_eq_true, decide_eq_true_iff] at sized
  exact natural_faced limit expected source number (holds.face rfl) (inside (by omega))

theorem each_held {γ δ : Type} {held decoded : γ → δ → Prop} {sources : List γ} {items : List δ}
    (hold : List.Forall₂ held sources items)
    (each : ∀ source item, item ∈ items → held source item → decoded source item) :
    List.Forall₂ decoded sources items := by
  induction hold with
  | nil => exact .nil
  | cons first others ih =>
      exact .cons (each _ _ List.mem_cons_self first)
        (ih fun source item member => each source item (List.mem_cons_of_mem _ member))

theorem list_read (decode : Decoder α) (encode : α → Json) (items : List α)
    (each : ∀ item ∈ items, Reads texts decode (encode item) item) :
    Reads texts (decodeList decode) (array (items.map encode)) items := by
  intro source holds
  obtain ⟨sources, closed, parts, hold⟩ := holds.items
  have decoded := decode_items_each decode sources items
    (each_held (List.forall₂_map_right_iff.mp hold) fun source item member held =>
      each item member source held)
  simp only [decodeList, parts, bind, Except.bind, decoded]
  rfl

theorem table_read (decode : Decoder α) (encode : α → Json) (entries : Entries α)
    (table : Entries.Table (fun value => Reads texts decode (encode value) value) entries) :
    Reads texts (decodeTable decode) (object (entries.mapValues encode)) entries := by
  intro source holds
  obtain ⟨members, closed, parts, _, hold⟩ := holds.members
  have decoded := decode_pairs_each decode members entries
    (each_held (List.forall₂_map_right_iff.mp hold) fun member entry there held =>
      ⟨held.1, table.2 entry there member.value held.2⟩)
  simp only [decodeTable, parts, bind, Except.bind, decoded, Entries.merge_distinct entries table.1]
  rfl

theorem record_read (expected : String) (names : List String) (fields : Fields α)
    (entries : Entries Json) (distinct : (Entries.keys entries).Nodup) (result : α)
    (made : ∀ slots, Slots.Hold (Source.Holds texts) slots entries → fields.Make slots result) :
    Reads texts (record expected names fields) (object entries) result := by
  intro source holds
  obtain ⟨members, closed, parts, apart, hold⟩ := holds.members
  have read := read_members_made (fun _ _ held => held.calm) names fields members closed entries hold
    distinct result (made _ (member_slots_hold 0 members.length _ members entries hold))
  simp only [record, parts, apart, bind, Except.bind, read]

-- A value that is there only sometimes. What it is encoded as must not be null, which would count
-- as absent.
theorem optional_read {slots : Slots} {entries : Entries Json}
    (hold : Slots.Hold (Source.Holds texts) slots entries) (name : String) {decode : Decoder α}
    (encode : α → Json) {result : Option α}
    (found : Entries.find? name entries = result.map encode)
    (reads : ∀ value ∈ result, (encode value).isNull = false ∧ Reads texts decode (encode value) value) :
    (optional name decode).Make slots result := by
  cases result with
  | none => exact defaulted_absent hold name none found
  | some value =>
      obtain ⟨somewhat, read⟩ := reads value rfl
      refine defaulted_read hold name found fun source holds => ?_
      rw [decodeOption, holds.is_null, somewhat, read source holds]
      rfl

theorem name_read (names : List String) (name : String) (known : name ∈ names) :
    Reads texts (decodeName names) (string name) name := by
  intro source holds
  have listed : names.contains name = true := by simpa using known
  simp only [decodeName, holds.face rfl, bind, Except.bind, listed, if_true]
  rfl

theorem choose_read (choices : List (String × Choice α)) (word : String) (choice : Choice α)
    (found : Entries.find? word choices = some choice) (source : Source)
    (holds : source.Holds texts (string word)) (payload : Option Source) :
    choose choices source payload = choice.read payload := by
  have known : word ∈ choices.map Prod.fst := Entries.key_of_found word choice choices found
  rw [choose, name_read _ word known source holds]
  simp only [bind, Except.bind, found]

theorem choice_plain_read (choices : List (String × Choice α)) (word : String) (result : α)
    (found : Entries.find? word choices = some (.plain result)) :
    Reads texts (decodeChoice choices) (string word) result := by
  intro source holds
  have chosen := choose_read choices word _ found source holds none
  have stands := holds.stands
  match source with
  | .given value =>
      cases stands
      exact chosen
  | .held value =>
      cases stands
      exact chosen
  | .written (.scalar start reading passing) =>
      have quoted := stands.2.2.2.2 word rfl
      cases start with
      | nil => cases quoted
      | cons c rest =>
          cases quoted
          exact chosen
  | .written (.array start level items ending) => obtain ⟨_, _, _, _, ⟨⟩, _⟩ := stands
  | .written (.object start level entries ending) => obtain ⟨_, _, _, _, ⟨⟩, _⟩ := stands
  | .written (.absent reading passing) => cases stands.2

theorem word_of_read (words : List (String × α)) (word : String) (result : α)
    (found : Entries.find? word words = some result) :
    Reads texts (decodeWordOf words) (string word) result := by
  refine choice_plain_read _ word result ?_
  induction words with
  | nil => cases found
  | cons first others ih =>
      rcases first with ⟨name, value⟩
      rw [List.map_cons, Entries.find?]
      rw [Entries.find?] at found
      split
      · rename_i same
        rw [if_pos same] at found
        cases found
        rfl
      · rename_i different
        rw [if_neg different] at found
        exact ih found

-- A choice with something to carry. Texts are left out: such choices are decoded from what was held
-- back only.
theorem choice_carried_read (choices : List (String × Choice α)) (word : String) (decode : Decoder α)
    (payload : Json) (result : α) (found : Entries.find? word choices = some (.carrying decode))
    (reads : Reads false decode payload result) :
    Reads false (decodeChoice choices) (object [(word, payload)]) result := by
  intro source holds
  have stands := holds.stands
  have inner : Printable payload := holds.printable.entry (List.mem_singleton_self _)
  have outer : Printable (string word) := ⟨by simp [numbers], by simp [depth, jsonNestingLimit]⟩
  cases source with
  | given value =>
      cases stands
      have holdsWord : (Source.given (string word)).Holds false (string word) := ⟨rfl, outer⟩
      rw [decodeChoice, chooseByValue, choose_read choices word _ found _ holdsWord]
      exact reads (.given payload) ⟨rfl, inner⟩
  | held value =>
      cases stands
      have holdsWord : (Source.held (string word)).Holds false (string word) := ⟨rfl, outer⟩
      rw [decodeChoice, chooseByValue, choose_read choices word _ found _ holdsWord]
      exact reads (.held payload) ⟨rfl, inner⟩
  | written value => cases stands.1

theorem split_kind_read (names : List String) (kind : Option String) (members : List Member)
    (entries : Entries Json) (hold : List.Forall₂ (Member.Holds (Source.Holds texts)) members entries)
    (plain : kindName ∉ Entries.keys entries) :
    splitKind names kind members = .ok (kind, entries) := by
  induction hold with
  | nil => rfl
  | @cons member entry members entries first others ih =>
      rcases entry with ⟨key, value⟩
      rw [Entries.keys_cons, List.mem_cons, not_or] at plain
      rw [splitKind, first.1]
      simp only [bind, Except.bind, if_neg (Ne.symm plain.1), first.2.contents, ih plain.2]
      rfl

theorem kinds_read (expected : String) (variants : List (String × Decoder α)) (kind : String)
    (decode : Decoder α) (entries : Entries Json) (result : α)
    (found : Entries.find? kind variants = some decode) (plain : kindName ∉ Entries.keys entries)
    (reads : Reads false decode (object entries) result) :
    Reads texts (decodeKinds expected variants) (object ((kindName, string kind) :: entries)) result := by
  intro source holds
  have known : kind ∈ variants.map Prod.fst := Entries.key_of_found kind _ variants found
  obtain ⟨members, closed, parts, apart, hold⟩ := holds.members
  cases hold with
  | cons first others =>
      have split := split_kind_read (variants.map Prod.fst) (some kind) _ entries others plain
      have read := reads (.held (object entries)) ⟨rfl, holds.printable.rest⟩
      have named := fun place => (map_error_ok_iff _ (DecodeError.settle place) _).mpr
        (name_read _ kind known _ first.2)
      have taken : takeKind expected (variants.map Prod.fst) source = .ok (kind, object entries) := by
        simp only [takeKind, parts, apart, bind, Except.bind, splitKind, first.1, if_true,
          Option.isSome_none, Bool.false_eq_true, if_false, named, split]
        rfl
      simp only [decodeKinds, taken, bind, Except.bind, found, read]

@[simp] theorem find_present (name key : String) (value : Option Json) :
    Entries.find? name (present key value) = if key = name then value else none := by
  cases value with
  | none => simp [present]
  | some value => simp [present]

def Named (names : List String) (entries : Entries Json) : Prop :=
  (Entries.keys entries).Sublist names

theorem keys_named (entries : Entries Json) : Named (Entries.keys entries) entries :=
  List.Sublist.refl _

theorem present_named (key : String) (value : Option Json) : Named [key] (present key value) := by
  cases value with
  | none => exact List.nil_sublist _
  | some value => exact List.Sublist.refl _

theorem Named.and {names others : List String} {entries more : Entries Json}
    (first : Named names entries) (behind : Named others more) :
    Named (names ++ others) (entries ++ more) := by
  rw [Named, Entries.keys, List.map_append]
  exact first.append behind

theorem Named.distinct {names : List String} {entries : Entries Json} (named : Named names entries)
    (distinct : names.Nodup) : (Entries.keys entries).Nodup :=
  distinct.sublist named

end BrowserFlow.Json
