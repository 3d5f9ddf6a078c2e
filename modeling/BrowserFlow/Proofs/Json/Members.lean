import BrowserFlow.Proofs.Json.Levels
/-! Records in a text that can be read. Their fields are the members of the object in the text; where no
field is repeated, the one with a known name holds the value that was read at it. -/
set_option autoImplicit false

namespace BrowserFlow.Json

open Written

variable {α : Type}

theorem fields_read_iff (fields : Fields α) (slots : Slots) (stray : Option (Nat × DecodeError))
    (value : α) :
    fields.read slots stray = .ok value ↔ stray = none ∧ fields.Make slots value := by
  constructor
  · intro read
    refine ⟨?_, fields_read_made fields slots stray value read⟩
    cases stray with
    | none => rfl
    | some fault =>
        unfold Fields.read at read
        cases given : fields slots with
        | ok _ =>
            rw [given] at read
            cases read
        | error _ =>
            rw [given] at read
            cases read
  · rintro ⟨rfl, made⟩
    unfold Fields.Make at made
    simp only [Fields.read, made]

def Parts.slots (members : Parts Member) : Slots :=
  ⟨memberSlots 0 members.parts, members.parts.length, fun name =>
    ⟨.mismatched (.missing name), members.closed⟩⟩

theorem read_members_iff (names : List String) (fields : Fields α) (members : Parts Member)
    (value : α) :
    readMembers names fields members = .ok value ↔
      memberStray? names [] 0 members.parts = none ∧ members.ending = .ok () ∧
        fields.Make members.slots value := by
  rw [readMembers, fields_read_iff, Option.or_eq_none_iff, and_assoc]
  refine and_congr_right fun _ => and_congr_left fun _ => ?_
  cases members.ending with
  | ok _ => simp [endingStray?]
  | error error => simp [endingStray?]

section

variable {holds : Source → Json → Prop} (names : List String)

theorem calm_rest (seen : List String) (number : Nat) (member : Member) (rest : List Member)
    (key : String) (named : member.name = .ok key)
    (calm : memberStray? names seen number (member :: rest) = none) :
    ∃ after, memberStray? names after (number + 1) rest = none ∧
      (∀ name ∈ seen, name ∈ after) ∧ (key ∈ names → key ∉ seen ∧ key ∈ after) := by
  simp only [memberStray?, named, List.contains_eq_mem, decide_eq_true_iff] at calm
  split at calm
  · split at calm
    · cases calm
    · rename_i fresh
      exact ⟨key :: seen, calm, fun name => List.mem_cons_of_mem _, fun _ =>
        ⟨fresh, List.mem_cons_self⟩⟩
  · rename_i foreign
    split at calm
    · cases calm
    · exact ⟨seen, calm, fun _ there => there, fun known => absurd known foreign⟩

theorem calm_unseen (seen : List String) (number : Nat) (members : List Member)
    (entries : Entries Json) (hold : List.Forall₂ (Member.Holds holds) members entries)
    (calm : memberStray? names seen number members = none) (name : String) (known : name ∈ names)
    (before : name ∈ seen) : name ∉ Entries.keys entries := by
  induction hold generalizing seen number with
  | nil => simp [Entries.keys]
  | @cons member entry members entries first others ih =>
      obtain ⟨after, later, kept, fresh⟩ := calm_rest names seen number member members _ first.1 calm
      rw [Entries.keys, List.map_cons, List.mem_cons, not_or]
      refine ⟨?_, ih after (number + 1) later (kept name before)⟩
      rintro rfl
      exact (fresh known).1 before

-- A known field is not repeated, and so its first member is the one that holds its entry.
theorem calm_slot (seen : List String) (number : Nat) (members : List Member)
    (entries : Entries Json) (hold : List.Forall₂ (Member.Holds holds) members entries)
    (calm : memberStray? names seen number members = none) (name : String) (known : name ∈ names)
    (value : Json) (listed : (name, value) ∈ entries) :
    ∃ slot, ((memberSlots number members).find? fun slot => slot.name == name) = some slot ∧
      holds slot.value value := by
  induction hold generalizing seen number with
  | nil => cases listed
  | @cons member entry members entries first others ih =>
      rcases member with ⟨key, repetition, source⟩
      rcases entry with ⟨other, found⟩
      obtain ⟨rfl, held⟩ := first
      obtain ⟨after, later, _, fresh⟩ := calm_rest names seen number _ members other rfl calm
      by_cases same : other = name
      · subst same
        have unseen := calm_unseen names after (number + 1) members entries others later other known
          (fresh known).2
        rcases List.mem_cons.mp listed with here | there
        · cases here
          exact ⟨⟨other, number, source, source.entryExit⟩, by simp [memberSlots], held⟩
        · exact absurd (List.mem_map.mpr ⟨_, there, rfl⟩) unseen
      · have there := (List.mem_cons.mp listed).resolve_left fun here => same (congrArg Prod.fst here).symm
        simpa [memberSlots, same] using ih after (number + 1) later there

end

def Source.Contains (source : Source) (value : Json) : Prop :=
  source.contents = .ok value

theorem entries_contain (entries : List (Key × Written)) (values : List (String × Json))
    (read : entryContents entries = .ok values) :
    List.Forall₂ (Member.Holds Source.Contains)
      (entries.map fun entry => .ofKey entry.1 entry.2) values := by
  induction entries generalizing values with
  | nil =>
      cases read
      exact .nil
  | cons entry rest ih =>
      rcases entry with ⟨key, value⟩
      simp only [entryContents, bind_ok_iff] at read
      obtain ⟨name, named, first, firstRead, others, othersRead, same⟩ := read
      cases same
      refine .cons ⟨?_, ?_⟩ (ih others othersRead)
      · simp only [Member.ofKey, named]
        rfl
      · simp only [Source.Contains, Member.ofKey, Source.contents, firstRead]
        rfl

theorem merged_entry (entries : List (String × Json)) (entry : String × Json)
    (member : entry ∈ mergedEntries entries) :
    ∃ given ∈ entries, entry = (given.1, given.2.merged) := by
  induction entries with
  | nil => cases member
  | cons first rest ih =>
      rcases first with ⟨key, value⟩
      rcases List.mem_cons.mp member with rfl | later
      · exact ⟨_, List.mem_cons_self, rfl⟩
      · obtain ⟨given, there, same⟩ := ih later
        exact ⟨given, List.mem_cons_of_mem _ there, same⟩

theorem found_written (entries : List (String × Json)) (name : String) (value : Json)
    (found : Entries.find? name (Entries.merge (mergedEntries entries)) = some value) :
    ∃ written, (name, written) ∈ entries ∧ written.merged = value := by
  rw [Entries.merge_find] at found
  obtain ⟨given, there, same⟩ :=
    merged_entry entries _ (List.mem_reverse.mp (Entries.find_member _ _ _ found))
  cases same
  exact ⟨given.2, there, rfl⟩

theorem written_members (written : Written) (levelled : written.Levelled 0) (entries : Entries Json)
    (read : written.contents = .ok (.object entries)) :
    ∃ members : Parts Member, members.ending = .ok () ∧
      List.Forall₂ (Member.Holds Source.Contains) members.parts entries ∧
      ∀ (α : Type) (expected : String) (names : List String) (fields : Fields α),
        record expected names fields (.written written) = readMembers names fields members := by
  match written with
  | .scalar start reading passing => cases levelled _ read
  | .absent reading passing => cases read
  | .array start level items ending =>
      simp only [contents, bind_ok_iff] at read
      obtain ⟨_, _, _, _, _, _, same⟩ := read
      cases same
  | .object start level found ending =>
      simp only [contents, bind_ok_iff] at read
      obtain ⟨_, inside, values, entriesRead, _, ended, same⟩ := read
      cases same
      refine ⟨.ofWritten _ ending, ?_, entries_contain found entries entriesRead, ?_⟩
      · change orDecodeError ending.check = .ok ()
        rw [ended]
        rfl
      · intro α expected names fields
        rw [record, Source.members?, inside]
        rfl

theorem document_members (text : String) (entries : Entries Json)
    (read : Json.read text = .ok (object entries)) :
    ∃ (members : Parts Member) (written : List (String × Json)), members.ending = .ok () ∧
      List.Forall₂ (Member.Holds Source.Contains) members.parts written ∧
      entries = Entries.merge (mergedEntries written) ∧
      ∀ (α : Type) (expected : String) (names : List String) (fields : Fields α),
        decodeDocument (record expected names fields) text = readMembers names fields members := by
  simp only [Json.read, bind_ok_iff] at read
  obtain ⟨value, contents, _, ended, same⟩ := read
  cases value with
  | object written =>
      cases same
      obtain ⟨members, ending, hold, decoded⟩ :=
        written_members (ofText text) (text_levelled text) written contents
      refine ⟨members, written, ending, hold, rfl, fun α expected names fields => ?_⟩
      rw [decodeDocument, decoded, ended]
      cases readMembers names fields members <;> rfl
  | _ => cases same

end BrowserFlow.Json
