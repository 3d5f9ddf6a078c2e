import BrowserFlow.Entries
/-! Looking entries up. A key is found exactly when an entry has it; among distinct keys every entry is the
one that is found at its key. -/
set_option autoImplicit false

namespace BrowserFlow.Entries

variable {α β : Type}

@[simp] theorem find_nil (key : String) : find? key ([] : Entries α) = none := rfl

@[simp] theorem find_cons (key name : String) (value : α) (rest : Entries α) :
    find? key ((name, value) :: rest) = if name = key then some value else find? key rest := rfl

theorem find_member (key : String) (value : α) (entries : Entries α)
    (found : find? key entries = some value) : (key, value) ∈ entries := by
  induction entries with
  | nil => simp [find?] at found
  | cons entry rest ih =>
      rcases entry with ⟨name, old⟩
      by_cases same : name = key
      · simp only [find?, if_pos same, Option.some.injEq] at found
        simp [same, found]
      · simp only [find?, if_neg same] at found
        exact List.mem_cons_of_mem _ (ih found)

theorem contains_iff (key : String) (entries : Entries α) :
    contains key entries = true ↔ ∃ value, find? key entries = some value := by
  induction entries with
  | nil => simp [contains, find?]
  | cons entry rest ih =>
      rcases entry with ⟨name, old⟩
      by_cases same : name = key
      · simp [contains, find?, same]
      · simpa [contains, find?, same] using ih

theorem contains_member (key : String) (entries : Entries α) :
    contains key entries = true ↔ key ∈ keys entries := by
  simp [contains, keys]

theorem key_of_found (key : String) (value : α) (entries : Entries α)
    (found : find? key entries = some value) : key ∈ keys entries :=
  (contains_member key entries).mp ((contains_iff key entries).mpr ⟨value, found⟩)

theorem find_absent (key : String) (entries : Entries α) (absent : key ∉ keys entries) :
    find? key entries = none := by
  cases found : find? key entries with
  | none => rfl
  | some value => exact absurd (key_of_found key value entries found) absent

theorem find_distinct (entries : Entries α) (distinct : (keys entries).Nodup) (key : String)
    (value : α) (member : (key, value) ∈ entries) : find? key entries = some value := by
  induction entries with
  | nil => simp at member
  | cons entry rest ih =>
      rcases entry with ⟨name, old⟩
      simp only [keys, List.map_cons, List.nodup_cons] at distinct
      cases List.mem_cons.mp member with
      | inl same =>
          cases same
          simp [find?]
      | inr later =>
          have different : name ≠ key := by
            intro same
            exact distinct.1 (same ▸ List.mem_map.mpr ⟨(key, value), later, rfl⟩)
          simpa only [find?, if_neg different] using ih distinct.2 later

theorem insert_absent (key : String) (value : α) (entries : Entries α)
    (absent : key ∉ keys entries) : insert key value entries = entries ++ [(key, value)] := by
  induction entries with
  | nil => rfl
  | cons entry rest ih =>
      rcases entry with ⟨name, old⟩
      simp only [keys, List.map_cons, List.mem_cons, not_or] at absent
      simp only [insert, if_neg (Ne.symm absent.1), List.cons_append]
      rw [ih absent.2]

theorem extend_distinct (entries more : Entries α) (distinct : (keys (entries ++ more)).Nodup) :
    extend entries more = entries ++ more := by
  induction more generalizing entries with
  | nil => simp [extend]
  | cons entry rest ih =>
      rcases entry with ⟨key, value⟩
      have absent : key ∉ keys entries := by
        simp only [keys, List.map_append, List.map_cons, List.nodup_append] at distinct
        exact fun member => distinct.2.2 key member key (by simp) rfl
      have stepped : extend entries ((key, value) :: rest) =
          extend (entries ++ [(key, value)]) rest := by
        simp only [extend, List.foldl_cons, insert_absent key value entries absent]
      rw [stepped, ih (entries ++ [(key, value)]) (by simpa [keys] using distinct)]
      simp

theorem keys_cons (key : String) (value : α) (rest : Entries α) :
    keys ((key, value) :: rest) = key :: keys rest := rfl

theorem insert_keys (key : String) (value : α) (entries : Entries α) :
    keys (insert key value entries) =
      if key ∈ keys entries then keys entries else keys entries ++ [key] := by
  induction entries with
  | nil => rfl
  | cons entry rest ih =>
      rcases entry with ⟨name, old⟩
      by_cases same : name = key
      · simp [insert, keys_cons, same]
      · rw [insert, if_neg same, keys_cons, keys_cons, ih]
        by_cases there : key ∈ keys rest
        · simp [there]
        · simp [there, Ne.symm same]

theorem insert_member (key : String) (value : α) (entries : Entries α) (entry : String × α)
    (member : entry ∈ insert key value entries) : entry.2 = value ∨ entry ∈ entries := by
  induction entries with
  | nil => exact Or.inl (by simp_all [insert])
  | cons first rest ih =>
      rcases first with ⟨name, old⟩
      by_cases same : name = key
      · simp only [insert, if_pos same, List.mem_cons] at member
        exact member.imp (fun here => by rw [here]) (List.mem_cons_of_mem _)
      · simp only [insert, if_neg same, List.mem_cons] at member
        cases member with
        | inl here => exact Or.inr (here ▸ List.mem_cons_self)
        | inr later => exact (ih later).imp id (List.mem_cons_of_mem _)

theorem insert_distinct (key : String) (value : α) (entries : Entries α)
    (distinct : (keys entries).Nodup) : (keys (insert key value entries)).Nodup := by
  rw [insert_keys]
  split
  · exact distinct
  · rename_i absent
    refine List.nodup_append.mpr ⟨distinct, by simp, fun name member other single => ?_⟩
    rw [List.mem_singleton.mp single]
    exact fun same => absent (same ▸ member)

-- Putting entries in keeps keys distinct and invents no value: the invariant of a merge.
theorem extend_sound (entries more : Entries α) (distinct : (keys entries).Nodup) :
    (keys (extend entries more)).Nodup ∧
      ∀ entry ∈ extend entries more, (∃ given ∈ more, entry.2 = given.2) ∨ entry ∈ entries := by
  induction more generalizing entries with
  | nil => exact ⟨distinct, fun entry member => Or.inr member⟩
  | cons given rest ih =>
      obtain ⟨later, known⟩ := ih (insert given.1 given.2 entries)
        (insert_distinct given.1 given.2 entries distinct)
      refine ⟨later, fun entry member => ?_⟩
      rcases known entry member with ⟨other, inRest, same⟩ | inserted
      · exact Or.inl ⟨other, List.mem_cons_of_mem _ inRest, same⟩
      · cases insert_member given.1 given.2 entries entry inserted with
        | inl new => exact Or.inl ⟨given, List.mem_cons_self, new⟩
        | inr old => exact Or.inr old

theorem merge_sound (pairs : Entries α) :
    (keys (merge pairs)).Nodup ∧ ∀ entry ∈ merge pairs, ∃ given ∈ pairs, entry.2 = given.2 := by
  obtain ⟨distinct, known⟩ := extend_sound [] pairs (by simp [keys])
  exact ⟨distinct, fun entry member => (known entry member).resolve_right (by simp)⟩

theorem extend_keys_known (entries more : Entries α) :
    ∀ key ∈ keys (extend entries more), key ∈ keys entries ∨ key ∈ keys more := by
  induction more generalizing entries with
  | nil => exact fun key member => Or.inl member
  | cons given rest ih =>
      rcases given with ⟨name, value⟩
      intro key member
      rw [keys_cons, List.mem_cons]
      rcases ih (insert name value entries) key member with inserted | later
      · rw [insert_keys] at inserted
        split at inserted
        · exact Or.inl inserted
        · rcases List.mem_append.mp inserted with old | new
          · exact Or.inl old
          · exact Or.inr (Or.inl (List.mem_singleton.mp new))
      · exact Or.inr (Or.inr later)

theorem merge_keys_known (pairs : Entries α) : ∀ key ∈ keys (merge pairs), key ∈ keys pairs :=
  fun key member => (extend_keys_known [] pairs key member).resolve_left (by simp [keys])

theorem merge_distinct (entries : Entries α) (distinct : (keys entries).Nodup) :
    merge entries = entries := by
  simpa [merge] using extend_distinct [] entries (by simpa using distinct)

def Table (property : α → Prop) (entries : Entries α) : Prop :=
  (keys entries).Nodup ∧ ∀ entry ∈ entries, property entry.2

theorem table_nil (property : α → Prop) : Table property ([] : Entries α) :=
  ⟨List.nodup_nil, by simp⟩

theorem Table.weaken {property weaker : α → Prop} {entries : Entries α} (table : Table property entries)
    (follows : ∀ value, property value → weaker value) : Table weaker entries :=
  ⟨table.1, fun entry member => follows entry.2 (table.2 entry member)⟩

theorem merge_table (property : α → Prop) (pairs : Entries α)
    (each : ∀ entry ∈ pairs, property entry.2) : Table property (merge pairs) := by
  obtain ⟨distinct, known⟩ := merge_sound pairs
  refine ⟨distinct, fun entry member => ?_⟩
  obtain ⟨given, there, same⟩ := known entry member
  rw [same]
  exact each given there

theorem insert_find (key name : String) (value : α) (entries : Entries α) :
    find? name (insert key value entries) = if key = name then some value else find? name entries := by
  induction entries with
  | nil => rfl
  | cons entry rest ih =>
      rcases entry with ⟨first, old⟩
      by_cases same : first = key
      · subst same
        rw [insert, if_pos rfl, find?, find?]
        split <;> rfl
      · rw [insert, if_neg same, find?, find?, ih]
        by_cases here : first = name
        · rw [if_pos here, if_pos here, if_neg fun other => same (here.trans other.symm)]
        · rw [if_neg here, if_neg here]

theorem insert_again (key : String) (old value : α) (entries : Entries α) :
    insert key value (insert key old entries) = insert key value entries := by
  induction entries with
  | nil => simp [insert]
  | cons entry rest ih =>
      rcases entry with ⟨name, before⟩
      by_cases same : name = key
      · simp [insert, same]
      · simp [insert, same, ih]

theorem insert_swap (key other : String) (value otherValue : α) (entries : Entries α)
    (different : other ≠ key) (there : key ∈ keys entries) :
    insert key value (insert other otherValue entries) =
      insert other otherValue (insert key value entries) := by
  induction entries with
  | nil => simp [keys] at there
  | cons entry rest ih =>
      rcases entry with ⟨name, old⟩
      by_cases same : name = key
      · subst same
        simp [insert, Ne.symm different]
      · have later : key ∈ keys rest := by
          rw [keys_cons, List.mem_cons] at there
          exact there.resolve_left (Ne.symm same)
        by_cases here : name = other
        · simp [insert, here, different]
        · simp [insert, same, here, ih later]

theorem extend_put (key : String) (value : α) (entries more : Entries α) (there : key ∈ keys entries)
    (absent : key ∉ keys more) :
    extend (insert key value entries) more = insert key value (extend entries more) := by
  induction more generalizing entries with
  | nil => rfl
  | cons entry rest ih =>
      rcases entry with ⟨name, added⟩
      rw [keys_cons, List.mem_cons, not_or] at absent
      have kept : key ∈ keys (insert name added entries) := by
        rw [insert_keys]
        split
        · exact there
        · exact List.mem_append_left _ there
      have next := ih (insert name added entries) kept absent.2
      rw [insert_swap key name value added entries (Ne.symm absent.1) there] at next
      exact next

theorem extend_insert (key : String) (value : α) (entries more : Entries α)
    (distinct : (keys more).Nodup) :
    extend entries (insert key value more) = insert key value (extend entries more) := by
  induction more generalizing entries with
  | nil => rfl
  | cons entry rest ih =>
      rcases entry with ⟨name, old⟩
      rw [keys_cons, List.nodup_cons] at distinct
      by_cases same : name = key
      · subst same
        have there : name ∈ keys (insert name old entries) :=
          key_of_found name old _ (by rw [insert_find, if_pos rfl])
        have put := extend_put name value (insert name old entries) rest there distinct.1
        rw [insert_again] at put
        rw [insert, if_pos rfl]
        exact put
      · rw [insert, if_neg same]
        exact ih (insert name old entries) distinct.2

theorem extend_find (name : String) (entries more : Entries α) (distinct : (keys more).Nodup) :
    find? name (extend entries more) = (find? name more).or (find? name entries) := by
  induction more generalizing entries with
  | nil => rfl
  | cons entry rest ih =>
      rcases entry with ⟨key, value⟩
      rw [keys_cons, List.nodup_cons] at distinct
      have next := ih (insert key value entries) distinct.2
      rw [insert_find] at next
      by_cases same : key = name
      · have absent : find? name rest = none := by
          cases found : find? name rest with
          | none => rfl
          | some later => exact absurd (same ▸ key_of_found name later rest found) distinct.1
        rw [absent, if_pos same, Option.none_or] at next
        rw [find?, if_pos same, Option.some_or]
        exact next
      · rw [if_neg same] at next
        rw [find?, if_neg same]
        exact next

theorem extend_keys (entries more : Entries α) (distinct : (keys more).Nodup) :
    keys (extend entries more) =
      keys entries ++ (keys more).filter fun key => key ∉ keys entries := by
  induction more generalizing entries with
  | nil => simp [extend, keys]
  | cons entry rest ih =>
      rcases entry with ⟨key, value⟩
      rw [keys_cons, List.nodup_cons] at distinct
      have next := ih (insert key value entries) distinct.2
      rw [insert_keys] at next
      rw [keys_cons, List.filter_cons]
      split at next
      · rename_i there
        rw [if_neg (by simpa using there)]
        exact next
      · rename_i absent
        -- No later key is the one that was put in.
        have others : (keys rest).filter (fun later => later ∉ keys entries ++ [key]) =
            (keys rest).filter fun later => later ∉ keys entries := by
          refine List.filter_congr fun later member => ?_
          have different : later ≠ key := fun same => distinct.1 (same ▸ member)
          simp [different]
        rw [if_pos (by simpa using absent)]
        rw [others, List.append_assoc] at next
        exact next

@[simp] theorem find_append (name : String) (entries more : Entries α) :
    find? name (entries ++ more) = (find? name entries).or (find? name more) := by
  induction entries with
  | nil => rfl
  | cons entry rest ih =>
      rcases entry with ⟨key, value⟩
      rw [List.cons_append, find?, find?, ih]
      split
      · rfl
      · rfl

theorem extend_find_last (name : String) (entries more : Entries α) :
    find? name (extend entries more) = (find? name more.reverse).or (find? name entries) := by
  induction more generalizing entries with
  | nil => rfl
  | cons entry rest ih =>
      rcases entry with ⟨key, value⟩
      have next := ih (insert key value entries)
      rw [insert_find] at next
      rw [List.reverse_cons, find_append, Option.or_assoc, find?, find?]
      by_cases same : key = name
      · rw [if_pos same] at next ⊢
        exact next
      · rw [if_neg same] at next ⊢
        exact next

theorem merge_find (name : String) (pairs : Entries α) :
    find? name (merge pairs) = find? name pairs.reverse := by
  rw [merge, extend_find_last, find?, Option.or_none]

theorem find_last (name : String) (value : α) (entries : Entries α) (position : Nat)
    (here : entries[position]? = some (name, value))
    (last : ∀ later, position < later → ∀ entry ∈ entries[later]?, entry.1 ≠ name) :
    find? name entries.reverse = some value := by
  induction entries generalizing position with
  | nil => cases here
  | cons entry rest ih =>
      rw [List.reverse_cons, find_append]
      cases position with
      | zero =>
          have absent : name ∉ keys rest.reverse := by
            rw [keys, List.mem_map]
            rintro ⟨other, member, same⟩
            obtain ⟨later, there⟩ := List.mem_iff_getElem?.mp (List.mem_reverse.mp member)
            exact last (later + 1) (by omega) other there same
          cases here
          rw [find_absent name _ absent, Option.none_or, find?, if_pos rfl]
      | succ position =>
          have found := ih position here fun later after => last (later + 1) (by omega)
          rw [found, Option.some_or]

theorem entries_same (one other : Entries α) (sameKeys : keys one = keys other)
    (distinct : (keys one).Nodup) (found : ∀ key ∈ keys one, find? key one = find? key other) :
    one = other := by
  induction one generalizing other with
  | nil =>
      cases other with
      | nil => rfl
      | cons entry rest => cases sameKeys
  | cons entry rest ih =>
      rcases entry with ⟨key, value⟩
      cases other with
      | nil => cases sameKeys
      | cons entry more =>
          rcases entry with ⟨name, given⟩
          rw [keys_cons, keys_cons, List.cons.injEq] at sameKeys
          obtain ⟨rfl, others⟩ := sameKeys
          rw [keys_cons, List.nodup_cons] at distinct
          have first := found key List.mem_cons_self
          rw [find?, find?, if_pos rfl, if_pos rfl, Option.some.injEq] at first
          have later : ∀ name ∈ keys rest, find? name rest = find? name more := by
            intro name member
            have there := found name (List.mem_cons_of_mem _ member)
            have different : key ≠ name := fun same => distinct.1 (same ▸ member)
            rwa [find?, find?, if_neg different, if_neg different] at there
          rw [first, ih more others distinct.2 later]

theorem extend_keys_first (entries more : Entries α) :
    keys (extend entries more) =
      keys entries ++ ((keys more).removeAll (keys entries)).eraseDups := by
  induction more generalizing entries with
  | nil => simp [extend, keys, List.removeAll]
  | cons entry rest ih =>
      rcases entry with ⟨key, value⟩
      have next := ih (insert key value entries)
      rw [insert_keys] at next
      rw [keys_cons, List.removeAll, List.filter_cons]
      by_cases there : key ∈ keys entries
      · rw [if_pos there] at next
        rw [if_neg (by simpa using there)]
        exact next
      · have others : (keys rest).removeAll (keys entries ++ [key]) =
            ((keys rest).removeAll (keys entries)).filter fun later => !later == key := by
          rw [List.removeAll, List.removeAll, List.filter_filter]
          refine List.filter_congr fun later _ => ?_
          by_cases same : later = key
          · simp [same]
          · simp [same]
        rw [if_neg there, others, List.append_assoc] at next
        rw [if_pos (by simpa using there), List.eraseDups_cons]
        exact next

theorem merge_keys (pairs : Entries α) : keys (merge pairs) = (keys pairs).eraseDups := by
  have all : (keys pairs).removeAll [] = keys pairs :=
    List.filter_eq_self.mpr fun _ _ => rfl
  rw [merge, extend_keys_first]
  exact congrArg List.eraseDups all

theorem keys_map_values (f : α → β) (entries : Entries α) :
    keys (mapValues f entries) = keys entries := by
  simp [keys, mapValues]

theorem find_named_iff (name : α → String) (items : List α) (distinct : (items.map name).Nodup)
    (word : String) (item : α) :
    find? word (items.map fun item => (name item, item)) = some item ↔
      item ∈ items ∧ name item = word := by
  have distinctKeys : (keys (items.map fun item => (name item, item))).Nodup := by
    simpa [keys, Function.comp_def] using distinct
  constructor
  · intro found
    obtain ⟨other, member, same⟩ := List.mem_map.mp (find_member word item _ found)
    cases same
    exact ⟨member, rfl⟩
  · rintro ⟨member, rfl⟩
    exact find_distinct _ distinctKeys _ _ (List.mem_map.mpr ⟨item, member, rfl⟩)

end BrowserFlow.Entries
