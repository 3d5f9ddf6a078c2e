import Mathlib.Data.List.Forall2
import BrowserFlow.Proofs.Batch.Cells
/-! Reading batches. What is read of a text is said by its lines: blank lines and comments are passed over,
the first line that remains names the columns, and each other one is a record. A table that is written with
commas and line ends is read as it is, whatever blank lines and comments stand between its rows. -/
set_option autoImplicit false

namespace BrowserFlow.Batch

def PassedOver (line : String) : Prop :=
  ∃ margin rest, line.toList = margin ++ rest ∧ (∀ c ∈ margin, Text.isBlank c = true) ∧
    ∀ c ∈ rest.head?, c = '#'

inductive Remain : List String → List String → Prop where
  | nothing : Remain [] []
  | passed (line : String) (lines rows : List String) (ignored : PassedOver line)
      (rest : Remain lines rows) : Remain (line :: lines) rows
  | kept (line : String) (lines rows : List String) (significant : ¬PassedOver line)
      (rest : Remain lines rows) : Remain (line :: lines) (line :: rows)

theorem passed_over_iff (line : String) : PassedOver line ↔ isSignificant line = false := by
  have parted := List.takeWhile_append_dropWhile (p := Text.isBlank) (l := line.toList)
  unfold isSignificant
  constructor
  · rintro ⟨margin, rest, written, blank, comment⟩
    rw [written, Text.trim_left_margin margin rest blank]
    cases rest with
    | nil => rfl
    | cons c tail =>
        cases comment c rfl
        rfl
  · intro passed
    refine ⟨line.toList.takeWhile Text.isBlank, Text.trimLeft line.toList, parted.symm,
      fun c member => List.mem_takeWhile_imp member, fun c first => ?_⟩
    cases chars : Text.trimLeft line.toList with
    | nil => simp [chars] at first
    | cons head tail =>
        rw [chars] at passed first
        cases first
        simpa using passed

theorem significant_iff (line : String) : isSignificant line = true ↔ ¬PassedOver line := by
  rw [passed_over_iff, Bool.not_eq_false]

theorem passed_over_front (line front : String) (ignored : PassedOver line)
    (inside : front.toList <+: line.toList) : PassedOver front := by
  obtain ⟨margin, rest, written, blank, comment⟩ := ignored
  have cut := List.prefix_iff_eq_take.mp inside
  rw [written, List.take_append] at cut
  refine ⟨_, _, cut, fun c member => blank c (List.mem_of_mem_take member), fun c first => ?_⟩
  rw [List.head?_take] at first
  split at first
  · cases first
  · exact comment c first

theorem remain_iff (lines rows : List String) :
    Remain lines rows ↔ lines.filter isSignificant = rows := by
  constructor
  · intro remain
    induction remain with
    | nothing => rfl
    | passed line lines rows ignored rest ih =>
        rw [List.filter_cons, (passed_over_iff line).mp ignored, if_neg Bool.false_ne_true, ih]
    | kept line lines rows significant rest ih =>
        rw [List.filter_cons, if_pos ((significant_iff line).mpr significant), ih]
  · rintro rfl
    induction lines with
    | nil => exact .nothing
    | cons line lines ih =>
        by_cases ignored : PassedOver line
        · rw [List.filter_cons, (passed_over_iff line).mp ignored, if_neg Bool.false_ne_true]
          exact .passed line lines _ ignored ih
        · rw [List.filter_cons, if_pos ((significant_iff line).mpr ignored)]
          exact .kept line lines _ ignored ih

def CutInto (line : String) (texts : List String) : Prop :=
  ∃ pieces, pieces ≠ [] ∧ (∀ piece ∈ pieces, ',' ∉ piece.toList) ∧
    line = Text.joinWith "," pieces ∧ texts = pieces.map Text.trim

theorem cut_into_iff (line : String) (texts : List String) :
    CutInto line texts ↔ cells line = texts := by
  constructor
  · rintro ⟨pieces, full, free, written, rfl⟩
    rw [cells, (Text.split_joined_iff ',' "," line pieces rfl).mpr ⟨full, free, written⟩]
  · rintro rfl
    obtain ⟨full, free, written⟩ := (Text.split_joined_iff ',' "," line _ rfl).mp rfl
    exact ⟨Text.split ',' line, full, free, written, rfl⟩

def LastAt (columns : List String) (name : String) (position : Nat) : Prop :=
  columns[position]? = some name ∧ ∀ later, position < later → columns[later]? ≠ some name

-- The record of a row: its keys are the names of the columns, each once, and at each name is the text of
-- the last column of that name, or nothing when the row does not go that far.
structure RecordOf (columns texts : List String) (record : Record) : Prop where
  keys : Entries.keys record = columns.eraseDups
  values : ∀ name position, LastAt columns name position →
    Entries.find? name record = some (texts[position]?.getD "")

theorem last_there (columns : List String) (name : String) (listed : name ∈ columns) :
    ∃ position, LastAt columns name position := by
  induction columns with
  | nil => cases listed
  | cons column columns ih =>
      by_cases later : name ∈ columns
      · obtain ⟨position, here, last⟩ := ih later
        refine ⟨position + 1, here, fun other after => ?_⟩
        obtain ⟨before, rfl⟩ := Nat.exists_eq_succ_of_ne_zero (Nat.ne_zero_of_lt after)
        exact last before (by omega)
      · have same := (List.mem_cons.mp listed).resolve_right later
        refine ⟨0, by simp [same], fun other after there => ?_⟩
        obtain ⟨before, rfl⟩ := Nat.exists_eq_succ_of_ne_zero (Nat.ne_zero_of_lt after)
        exact later (List.mem_of_getElem? there)

theorem pair_at (columns texts : List String) (position : Nat) :
    (pair columns texts)[position]? =
      columns[position]?.map fun column => (column, texts[position]?.getD "") := by
  induction columns generalizing texts position with
  | nil => cases texts <;> rfl
  | cons column columns ih =>
      cases texts <;> cases position <;> simp [pair, ih]

theorem record_of_line (columns : List String) (line : String) :
    RecordOf columns (cells line) (record columns line) := by
  constructor
  · rw [record, Entries.merge_keys, Entries.keys, pair_keys]
  · intro name position last
    rw [record, Entries.merge_find]
    refine Entries.find_last name _ _ position ?_ fun later after entry there same => ?_
    · rw [pair_at, last.1, Option.map_some]
    · rw [pair_at, Option.mem_def, Option.map_eq_some_iff] at there
      obtain ⟨column, found, rfl⟩ := there
      exact last.2 later after (same ▸ found)

theorem record_only (columns texts : List String) (one other : Record)
    (first : RecordOf columns texts one) (second : RecordOf columns texts other) : one = other := by
  refine Entries.entries_same one other (first.keys.trans second.keys.symm) ?_ fun name listed => ?_
  · rw [first.keys, ← (record_of_line columns "").keys]
    exact (record_keys columns "").1
  · rw [first.keys, List.mem_eraseDups] at listed
    obtain ⟨position, last⟩ := last_there columns name listed
    rw [first.values name position last, second.values name position last]

inductive Reads (text : String) : Except BatchError (List Record) → Prop where
  | missingHeader (ignored : ∀ line ∈ Text.lines text, PassedOver line) :
      Reads text (.error .missingHeader)
  | emptyColumn (header : String) (rows columns : List String) (position : Nat)
      (remain : Remain (Text.lines text) (header :: rows)) (cut : CutInto header columns)
      (empty : columns[position]? = some "")
      (first : ∀ earlier, earlier < position → columns[earlier]? ≠ some "") :
      Reads text (.error (.emptyColumn (position + 1)))
  | records (header : String) (rows columns : List String) (records : List Record)
      (remain : Remain (Text.lines text) (header :: rows)) (cut : CutInto header columns)
      (named : "" ∉ columns)
      (each : List.Forall₂ (fun row record => ∃ texts, CutInto row texts ∧ RecordOf columns texts record)
        rows records) : Reads text (.ok records)

theorem empty_column_iff (columns : List String) (place : Nat) :
    emptyColumn? columns = some place ↔
      ∃ position, place = position + 1 ∧ columns[position]? = some "" ∧
        ∀ earlier, earlier < position → columns[earlier]? ≠ some "" := by
  rw [emptyColumn?, Option.map_eq_some_iff]
  constructor
  · rintro ⟨position, found, rfl⟩
    obtain ⟨inside, empty, first⟩ := List.findIdx?_eq_some_iff_getElem.mp found
    refine ⟨position, rfl, ?_, fun earlier before there => first earlier before ?_⟩
    · rw [List.getElem?_eq_getElem inside, String.isEmpty_iff.mp empty]
    · obtain ⟨_, same⟩ := List.getElem?_eq_some_iff.mp there
      rw [same]
      rfl
  · rintro ⟨position, rfl, here, first⟩
    obtain ⟨inside, empty⟩ := List.getElem?_eq_some_iff.mp here
    refine ⟨position, List.findIdx?_eq_some_iff_getElem.mpr ⟨inside, ?_, fun earlier before full => ?_⟩, rfl⟩
    · rw [empty]
      rfl
    · refine first earlier before ?_
      rw [List.getElem?_eq_getElem (before.trans inside), String.isEmpty_iff.mp full]

theorem read_reads (text : String) : Reads text (read text) := by
  unfold read
  cases significant : (Text.lines text).filter isSignificant with
  | nil =>
      refine .missingHeader fun line listed => (passed_over_iff line).mpr ?_
      simpa using List.filter_eq_nil_iff.mp significant line listed
  | cons header rows =>
      have remain := (remain_iff _ _).mpr significant
      have cut := (cut_into_iff header _).mpr rfl
      dsimp only
      cases empty : emptyColumn? (cells header) with
      | some place =>
          obtain ⟨position, rfl, here, first⟩ := (empty_column_iff _ _).mp empty
          exact .emptyColumn header rows _ position remain cut here first
      | none =>
          refine .records header rows _ _ remain cut ((named_iff _).mp empty) ?_
          rw [List.forall₂_map_right_iff, List.forall₂_same]
          exact fun row _ => ⟨cells row, (cut_into_iff row _).mpr rfl, record_of_line _ row⟩

theorem read_iff (text : String) (outcome : Except BatchError (List Record)) :
    read text = outcome ↔ Reads text outcome := by
  constructor
  · rintro rfl
    exact read_reads text
  · intro reads
    cases reads with
    | missingHeader ignored =>
        have significant : (Text.lines text).filter isSignificant = [] := by
          rw [List.filter_eq_nil_iff]
          intro line listed
          rw [(passed_over_iff line).mp (ignored line listed)]
          exact Bool.false_ne_true
        rw [read, significant]
    | emptyColumn header rows columns position remain cut empty first =>
        have place := (empty_column_iff columns _).mpr ⟨position, rfl, empty, first⟩
        rw [read, (remain_iff _ _).mp remain]
        dsimp only
        rw [(cut_into_iff _ _).mp cut, place]
    | records header rows columns records remain cut named each =>
        have made : rows.map (record columns) = records := by
          rw [← List.forall₂_eq_eq_eq, List.forall₂_map_left_iff]
          refine each.imp fun row given ⟨texts, rowCut, of⟩ => ?_
          rw [← (cut_into_iff _ _).mp rowCut] at of
          exact record_only columns _ _ _ (record_of_line columns row) of
        rw [read, (remain_iff _ _).mp remain]
        dsimp only
        rw [(cut_into_iff _ _).mp cut, (named_iff columns).mpr named, made]

def written (headers : List String) (table : List (List String)) : List String :=
  (headers :: table).map (Text.joinWith ",")

structure Writable (headers : List String) (table : List (List String)) : Prop where
  full : headers ≠ []
  distinct : headers.Nodup
  named : "" ∉ headers
  heads : ∀ header ∈ headers, IsCell header
  widths : ∀ row ∈ table, row.length = headers.length
  cells : ∀ row ∈ table, ∀ text ∈ row, IsCell text
  lines : ∀ line ∈ written headers table, line ≠ "" ∧ line.toList.head? ≠ some '#'

inductive Interspersed : List String → List String → Prop where
  | nothing : Interspersed [] []
  | other (line : String) (lines rows : List String) (ignored : PassedOver line)
      (rest : Interspersed lines rows) : Interspersed (line :: lines) rows
  | row (line : String) (lines rows : List String) (rest : Interspersed lines rows) :
      Interspersed (line :: lines) (line :: rows)

theorem interspersed_remain (lines rows : List String) (interspersed : Interspersed lines rows)
    (significant : ∀ row ∈ rows, ¬PassedOver row) : Remain lines rows := by
  induction interspersed with
  | nothing => exact .nothing
  | other line lines rows ignored rest ih => exact .passed line lines rows ignored (ih significant)
  | row line lines rows rest ih =>
      rw [List.forall_mem_cons] at significant
      exact .kept line lines rows significant.1 (ih significant.2)

-- Whatever lines stand between them, the rows are what remains of the lines that are read. A line that is
-- passed over may lose a carriage return at its end, but a row has none there.
theorem laid_remain (lines rows : List String) (text : String) (laid : Text.Laid lines text)
    (remain : Remain lines rows) (free : ∀ line ∈ lines, '\n' ∉ line.toList)
    (ends : ∀ row ∈ rows, row.toList.getLast? ≠ some '\r') : Remain (Text.lines text) rows := by
  induction laid generalizing rows with
  | nothing => exact remain
  | last line =>
      rw [Text.last_line line (free line List.mem_cons_self)]
      split
      · rename_i empty
        cases remain with
        | passed _ _ _ ignored rest => exact rest
        | kept _ _ _ significant rest =>
            refine absurd ⟨[], [], ?_, by simp, by simp⟩ significant
            rw [empty]
            rfl
      · exact remain
  | ended line ending lines text listed laid ih =>
      rw [List.forall_mem_cons] at free
      obtain ⟨shown, read, front, same⟩ := Text.line_ended line ending text listed free.1
      rw [read]
      cases remain with
      | passed _ _ _ ignored rest =>
          exact .passed shown _ _ (passed_over_front line shown ignored front) (ih rows rest free.2 ends)
      | kept _ _ rows significant rest =>
          rw [List.forall_mem_cons] at ends
          rw [same ends.1]
          exact .kept line _ _ significant (ih rows rest free.2 ends.2)

theorem Writable.row_trimmed {headers : List String} {table : List (List String)}
    (writable : Writable headers table) :
    ∀ line ∈ written headers table, Text.trimChars line.toList = line.toList := by
  rw [written, List.forall_mem_map, List.forall_mem_cons]
  exact ⟨line_trimmed headers writable.heads, fun row member => line_trimmed row (writable.cells row member)⟩

theorem Writable.row_significant {headers : List String} {table : List (List String)}
    (writable : Writable headers table) : ∀ line ∈ written headers table, ¬PassedOver line := by
  intro line listed
  have apart := line_significant_iff "" line (by simp) (writable.row_trimmed line listed)
  rw [String.empty_append, significant_iff] at apart
  exact apart.mpr (writable.lines line listed)

theorem Writable.row_ends {headers : List String} {table : List (List String)}
    (writable : Writable headers table) :
    ∀ line ∈ written headers table, line.toList.getLast? ≠ some '\r' := by
  intro line listed last
  obtain ⟨_, ends⟩ := (Text.trim_same_iff _).mp (writable.row_trimmed line listed)
  exact absurd (ends '\r' last) (by decide)

theorem pair_zip (columns texts : List String) (wide : texts.length = columns.length) :
    pair columns texts = columns.zip texts := by
  induction columns generalizing texts with
  | nil => rfl
  | cons column columns ih =>
      cases texts with
      | nil => cases wide
      | cons text texts => rw [pair, ih texts (Nat.succ.inj wide), List.zip_cons_cons]

theorem record_zip (columns texts : List String) (line : String) (distinct : columns.Nodup)
    (wide : texts.length = columns.length) (cut : cells line = texts) :
    record columns line = columns.zip texts := by
  have keys : Entries.keys (columns.zip texts) = columns := List.map_fst_zip (Nat.le_of_eq wide.symm)
  rw [record, cut, pair_zip columns texts wide]
  exact Entries.merge_distinct _ (keys.symm ▸ distinct)

theorem written_read (headers : List String) (table : List (List String)) (lines : List String)
    (text : String) (writable : Writable headers table)
    (interspersed : Interspersed lines (written headers table))
    (free : ∀ line ∈ lines, '\n' ∉ line.toList) (laid : Text.Laid lines text) :
    read text = .ok (table.map headers.zip) := by
  have remain := interspersed_remain lines _ interspersed writable.row_significant
  have kept := (remain_iff _ _).mp (laid_remain lines _ text laid remain free writable.row_ends)
  have header : cells (Text.joinWith "," headers) = headers := by
    simpa using line_cells "" headers writable.full writable.heads (by simp)
  refine (read_ok_iff text _).mpr ⟨_, _, kept, ?_, ?_⟩
  · rw [header]
    exact writable.named
  · rw [header, List.map_map]
    refine List.map_congr_left fun row member => ?_
    have wide := writable.widths row member
    have full : row ≠ [] := by
      rintro rfl
      exact writable.full (List.length_eq_zero_iff.mp wide.symm)
    have cut : cells (Text.joinWith "," row) = row := by
      simpa using line_cells "" row full (writable.cells row member) (by simp)
    exact (record_zip headers row _ writable.distinct wide cut).symm

theorem tables_read :
    (∀ text outcome, read text = outcome ↔ Reads text outcome) ∧
      ∀ headers table lines text, Writable headers table →
        Interspersed lines (written headers table) → (∀ line ∈ lines, '\n' ∉ line.toList) →
        Text.Laid lines text → read text = .ok (table.map headers.zip) :=
  ⟨read_iff, written_read⟩

theorem tables_read_members :
    read "# members\r\nname,paid\n\nAda,10\r\n  # new\nBo," =
      .ok [[("name", "Ada"), ("paid", "10")], [("name", "Bo"), ("paid", "")]] := by
  have ignored : ∀ line ∈ ["# members", "", "  # new"], PassedOver line := by
    simp only [passed_over_iff]
    decide
  have writable : Writable ["name", "paid"] [["Ada", "10"], ["Bo", ""]] := by
    constructor <;> decide
  have interspersed : Interspersed ["# members", "name,paid", "", "Ada,10", "  # new", "Bo,"]
      (written ["name", "paid"] [["Ada", "10"], ["Bo", ""]]) := by
    refine .other _ _ _ (ignored _ (by decide)) (.row _ _ _ ?_)
    refine .other _ _ _ (ignored _ (by decide)) (.row _ _ _ ?_)
    exact .other _ _ _ (ignored _ (by decide)) (.row _ _ _ .nothing)
  refine tables_read.2 _ _ _ _ writable interspersed (by decide) ?_
  -- The text is cut behind each line end from the front.
  exact .ended "# members" "\r\n" _ _ (by decide) <| .ended "name,paid" "\n" _ _ (by decide) <|
    .ended "" "\n" _ _ (by decide) <| .ended "Ada,10" "\r\n" _ _ (by decide) <|
    .ended "  # new" "\n" _ _ (by decide) (.last "Bo,")

end BrowserFlow.Batch
