import BrowserFlow.Json.Decoding
import BrowserFlow.Proofs.Authoring.Grammar
import BrowserFlow.Proofs.Json.WellFormed
import BrowserFlow.Proofs.Success
/-! Decoding values that are given. On an object with distinct keys a record is what its fields make of the
entries at their names; each kind of field decodes when the entry follows its rule. -/
set_option autoImplicit false

namespace BrowserFlow.Json

open Authoring

variable {α β : Type}

def Fields.Make (fields : Fields α) (slots : Slots) (value : α) : Prop :=
  fields slots = .ok value

theorem Fields.Make.map {x : Fields α} {slots : Slots} {value : α} (made : x.Make slots value)
    (f : α → β) : Fields.Make (f <$> x) slots (f value) := by
  unfold Fields.Make at made
  change Fields.both (fun _ => .ok f) x slots = .ok (f value)
  simp only [Fields.both, made]

theorem Fields.Make.and {f : Fields (α → β)} {x : Fields α} {slots : Slots} {function : α → β}
    {value : α} (first : f.Make slots function) (second : x.Make slots value) :
    Fields.Make (f <*> x) slots (function value) := by
  unfold Fields.Make at first second
  change Fields.both f x slots = .ok (function value)
  simp only [Fields.both, first, second]

-- The decoder gives the result for every source that holds the value.
def ReadsFrom (holds : Source → Json → Prop) (decode : Decoder α) (value : Json) (result : α) : Prop :=
  ∀ source, holds source value → decode source = .ok result

def Member.Holds (holds : Source → Json → Prop) (member : Member) (entry : String × Json) : Prop :=
  member.name = .ok entry.1 ∧ holds member.value entry.2

def Slots.Hold (holds : Source → Json → Prop) (slots : Slots) (entries : Entries Json) : Prop :=
  ∀ name, (∀ value, Entries.find? name entries = some value →
      ∃ slot, slots.find? name = some slot ∧ holds slot.value value) ∧
    (Entries.find? name entries = none → slots.find? name = none)

section Sources

variable {holds : Source → Json → Prop}

theorem member_slots_hold (number size : Nat) (missing : String → DecodeError)
    (members : List Member) (entries : Entries Json)
    (hold : List.Forall₂ (Member.Holds holds) members entries) :
    Slots.Hold holds ⟨memberSlots number members, size, missing⟩ entries := by
  intro name
  induction hold generalizing number with
  | nil => exact ⟨nofun, fun _ => rfl⟩
  | @cons member entry members entries first others ih =>
      rcases member with ⟨key, repetition, source⟩
      rcases entry with ⟨other, value⟩
      obtain ⟨rfl, held⟩ := first
      by_cases same : other = name
      · subst same
        rw [Entries.find?, if_pos rfl]
        refine ⟨fun found there => ?_, nofun⟩
        cases there
        exact ⟨⟨other, number, source, source.entryExit⟩, by simp [Slots.find?, memberSlots], held⟩
      · have later := ih (number + 1)
        rw [Entries.find?, if_neg same]
        simpa [Slots.find?, memberSlots, same] using later

theorem members_calm (calm : ∀ source value, holds source value → source.passingFault? = none)
    (names seen : List String) (number : Nat) (members : List Member) (entries : Entries Json)
    (hold : List.Forall₂ (Member.Holds holds) members entries)
    (distinct : (Entries.keys entries).Nodup) (unseen : ∀ key ∈ Entries.keys entries, key ∉ seen) :
    memberStray? names seen number members = none := by
  induction hold generalizing seen number with
  | nil => rfl
  | @cons member entry members entries first others ih =>
      rcases entry with ⟨key, value⟩
      rw [Entries.keys_cons, List.nodup_cons] at distinct
      rw [Entries.keys_cons, List.forall_mem_cons] at unseen
      have fresh : seen.contains key = false := by simpa using unseen.1
      have passed := calm member.value value first.2
      rw [memberStray?, first.1]
      simp only [fresh, passed]
      split
      · refine ih (key :: seen) (number + 1) distinct.2 fun other there => ?_
        rw [List.mem_cons, not_or]
        exact ⟨fun same => distinct.1 (same ▸ there), unseen.2 other there⟩
      · exact ih seen (number + 1) distinct.2 unseen.2

theorem read_members_made (calm : ∀ source value, holds source value → source.passingFault? = none)
    (names : List String) (fields : Fields α) (members : List Member) (closed : Option TextPlace)
    (entries : Entries Json) (hold : List.Forall₂ (Member.Holds holds) members entries)
    (distinct : (Entries.keys entries).Nodup) (result : α)
    (made : fields.Make ⟨memberSlots 0 members, members.length, fun name =>
      ⟨.mismatched (.missing name), closed⟩⟩ result) :
    readMembers names fields ⟨members, .ok (), closed⟩ = .ok result := by
  have quiet := members_calm calm names [] 0 members entries hold distinct (by simp)
  unfold Fields.Make at made
  simp only [readMembers, quiet, endingStray?, Option.or_none, Fields.read, made]

variable {slots : Slots} {entries : Entries Json} (hold : Slots.Hold holds slots entries) (name : String)
  {decode : Decoder α} {value : Json} {result : α}

include hold

theorem required_read (found : Entries.find? name entries = some value)
    (reads : ReadsFrom holds decode value result) : (required name decode).Make slots result := by
  obtain ⟨slot, there, held⟩ := (hold name).1 value found
  simp only [Fields.Make, required, there, Slot.decode, reads slot.value held]
  rfl

theorem defaulted_read {absent : α} (found : Entries.find? name entries = some value)
    (reads : ReadsFrom holds decode value result) :
    (defaulted name absent decode).Make slots result := by
  obtain ⟨slot, there, held⟩ := (hold name).1 value found
  simp only [Fields.Make, defaulted, there, Slot.decode, reads slot.value held]
  rfl

theorem defaulted_absent (absent : α) (missing : Entries.find? name entries = none) :
    (defaulted name absent decode).Make slots absent := by
  simp only [Fields.Make, defaulted, (hold name).2 missing]

end Sources

theorem decode_items_each (decode : Decoder α) (sources : List Source) (items : List α)
    (each : List.Forall₂ (fun source item => decode source = .ok item) sources items) :
    decodeItems decode sources = .ok items := by
  induction each with
  | nil => rfl
  | cons first others ih =>
      rw [decodeItems, first, ih]
      rfl

theorem decode_pairs_each (decode : Decoder α) (members : List Member) (entries : Entries α)
    (each : List.Forall₂ (fun member entry => member.name = .ok entry.1 ∧
      decode member.value = .ok entry.2) members entries) :
    decodePairs decode members = .ok entries := by
  induction each with
  | nil => rfl
  | cons first others ih =>
      rw [decodePairs, first.1, first.2, ih]
      rfl

def Source.Gives (source : Source) (value : Json) : Prop :=
  source = .given value

theorem gives_calm (source : Source) (value : Json) (gives : source.Gives value) :
    source.passingFault? = none := by
  rw [gives]
  rfl

theorem reads_given (decode : Decoder α) (value : Json) (result : α)
    (decoded : decode (.given value) = .ok result) : ReadsFrom Source.Gives decode value result := by
  rintro _ rfl
  exact decoded

def givenMembers (entries : Entries Json) : List Member :=
  entries.map fun (name, value) => ⟨.ok name, none, .given value⟩

def givenSlots (entries : Entries Json) : Slots :=
  ⟨memberSlots 0 (givenMembers entries), (givenMembers entries).length, fun name =>
    ⟨.mismatched (.missing name), none⟩⟩

theorem given_members_hold (entries : Entries Json) :
    List.Forall₂ (Member.Holds Source.Gives) (givenMembers entries) entries :=
  List.forall₂_map_left_iff.mpr (List.forall₂_same.mpr fun _ _ => ⟨rfl, rfl⟩)

theorem given_slots_hold (entries : Entries Json) :
    Slots.Hold Source.Gives (givenSlots entries) entries :=
  member_slots_hold 0 _ _ _ entries (given_members_hold entries)

theorem record_given (expected : String) (names : List String) (fields : Fields α)
    (entries : Entries Json) (distinct : (Entries.keys entries).Nodup) (result : α)
    (made : fields.Make (givenSlots entries) result) :
    record expected names fields (.given (object entries)) = .ok result :=
  read_members_made gives_calm names fields (givenMembers entries) none entries
    (given_members_hold entries) distinct result made

theorem required_field (entries : Entries Json) (name : String) (decode : Decoder α) (value : Json)
    (result : α) (found : Entries.find? name entries = some value)
    (decoded : decode (.given value) = .ok result) :
    (required name decode).Make (givenSlots entries) result :=
  required_read (given_slots_hold entries) name found (reads_given decode value result decoded)

theorem defaulted_field (entries : Entries Json) (name : String) (absent : α) (decode : Decoder α)
    (f : Json → α)
    (decodes : ∀ value, Entries.find? name entries = some value →
      decode (.given value) = .ok (f value)) :
    (defaulted name absent decode).Make (givenSlots entries)
      (((Entries.find? name entries).map f).getD absent) := by
  cases found : Entries.find? name entries with
  | none => exact defaulted_absent (given_slots_hold entries) name absent found
  | some value =>
      exact defaulted_read (given_slots_hold entries) name found
        (reads_given decode value (f value) (decodes value found))

theorem optional_field (entries : Entries Json) (name : String) (decode : Decoder α)
    (f : Json → Option α)
    (decodes : ∀ value, Entries.find? name entries = some value →
      decodeOption decode (.given value) = .ok (f value)) :
    (optional name decode).Make (givenSlots entries) ((Entries.find? name entries).bind f) := by
  have made := defaulted_field entries name none (decodeOption decode) f decodes
  rw [optional]
  cases found : Entries.find? name entries with
  | none => simpa [found] using made
  | some value => simpa [found] using made

theorem option_given (decode : Decoder α) (value : Json) (result : α)
    (somewhat : value.isNull = false) (decoded : decode (.given value) = .ok result) :
    decodeOption decode (.given value) = .ok (some result) := by
  simp [decodeOption, Source.isNull, somewhat, decoded, Except.map]

theorem decode_list_given (decode : Decoder α) (f : Json → α) (items : List Json)
    (each : ∀ item ∈ items, decode (.given item) = .ok (f item)) :
    decodeList decode (.given (array items)) = .ok (items.map f) := by
  have decoded := decode_items_each decode (items.map .given) (items.map f)
    (List.forall₂_map_left_iff.mpr (List.forall₂_map_right_iff.mpr (List.forall₂_same.mpr each)))
  simp only [decodeList, Source.items?, Parts.whole, bind, Except.bind, decoded]
  rfl

theorem decode_table_given (decode : Decoder α) (f : Json → α) (entries : Entries Json)
    (distinct : (Entries.keys entries).Nodup)
    (each : ∀ entry ∈ entries, decode (.given entry.2) = .ok (f entry.2)) :
    decodeTable decode (.given (object entries)) = .ok (Entries.mapValues f entries) := by
  have decoded := decode_pairs_each decode (givenMembers entries) (Entries.mapValues f entries)
    (List.forall₂_map_left_iff.mpr (List.forall₂_map_right_iff.mpr
      (List.forall₂_same.mpr fun entry member => ⟨rfl, each entry member⟩)))
  have merged : Entries.merge (Entries.mapValues f entries) = Entries.mapValues f entries :=
    Entries.merge_distinct _ (by rw [Entries.keys_map_values]; exact distinct)
  unfold givenMembers at decoded
  simp only [decodeTable, Source.members?, Parts.whole, bind, Except.bind, decoded, merged]
  rfl

def isTrue : Json → Bool
  | bool flag => flag
  | _ => false

def natural? : Json → Option Nat
  | integer whole => some whole.toNat
  | _ => none

def valueAt? (key : String) (entries : Entries Json) : Option Json :=
  (Entries.find? key entries).bind fun value => if value.isNull then none else some value

variable (entries : Entries Json) (name : String)

theorem required_text (rule : Must name IsText entries) :
    (required name decodeText).Make (givenSlots entries) (textAt name entries) := by
  obtain ⟨_, found, text, rfl⟩ := rule
  rw [text_at_found name text entries found]
  exact required_field entries name decodeText (string text) text found rfl

theorem optional_text (rule : May name IsText entries) :
    (optional name decodeText).Make (givenSlots entries) (Condition.text? name entries) := by
  refine optional_field entries name decodeText string? fun value found => ?_
  obtain ⟨text, rfl⟩ := rule value found
  rfl

theorem defaulted_flag (rule : May name IsFlag entries) :
    (defaulted name false decodeFlag).Make (givenSlots entries)
      (((Entries.find? name entries).map isTrue).getD false) := by
  refine defaulted_field entries name false decodeFlag isTrue fun value found => ?_
  obtain ⟨flag, rfl⟩ := rule value found
  rfl

theorem optional_any (proper : (object entries).wellFormed = true) :
    (optional name decodeAny).Make (givenSlots entries) (valueAt? name entries) := by
  refine optional_field entries name decodeAny _ fun value found => ?_
  have merged := merged_well_formed value (found_well_formed entries proper name value found)
  cases empty : value.isNull with
  | true => simp [decodeOption, Source.isNull, empty]
  | false =>
      refine option_given decodeAny value value empty ?_
      rw [decodeAny, Source.contents, Except.map, merged]

theorem optional_word (proper : (object entries).wellFormed = true)
    (rule : May name IsMilliseconds entries) :
    (optional name decodeWord).Make (givenSlots entries)
      ((Entries.find? name entries).bind natural?) := by
  refine optional_field entries name decodeWord natural? fun value found => ?_
  obtain ⟨whole, rfl, positive⟩ := rule value found
  have fits := found_well_formed entries proper name (integer whole) found
  simp only [wellFormed, Number.fitsInteger, Bool.and_eq_true, decide_eq_true_iff] at fits
  have inside : (decide (0 ≤ whole) && decide (whole < Number.twoTo 64)) = true := by
    simp only [Bool.and_eq_true, decide_eq_true_iff]
    exact ⟨by omega, fits.2⟩
  refine option_given decodeWord (integer whole) whole.toNat rfl ?_
  simp only [decodeWord, decodeNatural, Source.face, bind, Except.bind, inside]
  rfl

end BrowserFlow.Json
