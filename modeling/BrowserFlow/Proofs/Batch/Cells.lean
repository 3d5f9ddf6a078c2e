import BrowserFlow.Batch
import BrowserFlow.Proofs.Entries
import BrowserFlow.Proofs.Success
import BrowserFlow.Proofs.Text.Lines
import BrowserFlow.Proofs.Text.Trimming
/-! Cells of a batch. A line is cut into cells, and cells that are written as a line, with commas between
them and behind any margin, are the cells of it. A record has the columns for keys and the cells for values.
-/
set_option autoImplicit false

namespace BrowserFlow.Batch

structure IsCell (text : String) : Prop where
  trimmed : Text.trim text = text
  uncut : ',' ∉ text.toList
  unbroken : '\n' ∉ text.toList

instance (text : String) : Decidable (IsCell text) :=
  decidable_of_iff (Text.trim text = text ∧ ',' ∉ text.toList ∧ '\n' ∉ text.toList)
    ⟨fun ⟨trimmed, uncut, unbroken⟩ => ⟨trimmed, uncut, unbroken⟩,
      fun cell => ⟨cell.trimmed, cell.uncut, cell.unbroken⟩⟩

theorem cell_empty : IsCell "" := by decide

theorem IsCell.chars {text : String} (cell : IsCell text) :
    Text.trimChars text.toList = text.toList := by
  have trimmed := congrArg String.toList cell.trimmed
  rwa [Text.trim, String.toList_ofList] at trimmed

theorem cells_cell (line : String) (free : '\n' ∉ line.toList) : ∀ text ∈ cells line, IsCell text := by
  intro text listed
  obtain ⟨piece, member, rfl⟩ := List.mem_map.mp listed
  have uncut := Text.split_free ',' line piece member
  have known := Text.split_subset ',' line piece member
  refine ⟨?_, fun inside => ?_, fun inside => ?_⟩
  · rw [Text.trim, Text.trim, String.toList_ofList, Text.trim_again]
  · rw [Text.trim, String.toList_ofList] at inside
    exact uncut (Text.trim_subset _ _ inside)
  · rw [Text.trim, String.toList_ofList] at inside
    exact free (known _ (Text.trim_subset _ _ inside))

theorem line_cells (margin : String) (texts : List String) (full : texts ≠ [])
    (each : ∀ text ∈ texts, IsCell text) (blank : ∀ c ∈ margin.toList, Text.isBlank c = true) :
    cells (margin ++ Text.joinWith "," texts) = texts := by
  obtain ⟨first, rest, rfl⟩ := List.exists_cons_of_ne_nil full
  obtain ⟨firstCell, restCells⟩ := List.forall_mem_cons.mp each
  have marginFree : ',' ∉ margin.toList := fun inside => absurd (blank ',' inside) (by decide)
  have cut : Text.splitAt ',' (margin ++ Text.joinWith "," (first :: rest)).toList =
      (margin.toList ++ first.toList) :: rest.map String.toList := by
    rw [String.toList_append, Text.join_with_chars, ← List.append_assoc]
    refine (Text.split_at_iff ',' _ _ _).mpr ⟨rfl, ?_, List.forall_mem_map.mpr fun text member => ?_⟩
    · rw [List.mem_append, not_or]
      exact ⟨marginFree, firstCell.uncut⟩
    · exact (restCells text member).uncut
  have others : (rest.map String.toList).map (Text.trim ∘ String.ofList) = rest := by
    have kept : ∀ text ∈ rest, ((Text.trim ∘ String.ofList) ∘ String.toList) text = id text := by
      intro text member
      rw [Function.comp_apply, Function.comp_apply, String.ofList_toList, (restCells text member).trimmed]
      rfl
    rw [List.map_map, List.map_congr_left kept, List.map_id]
  have front : Text.trim (String.ofList (margin.toList ++ first.toList)) = first := by
    rw [Text.trim, String.toList_ofList, Text.trim_margin _ _ blank, ← Text.trim, firstCell.trimmed]
  rw [cells, Text.split, cut, List.map_map, List.map_cons, others]
  exact congrArg (· :: rest) front

theorem line_free (texts : List String) (each : ∀ text ∈ texts, IsCell text) :
    '\n' ∉ (Text.joinWith "," texts).toList := by
  cases texts with
  | nil => simp [Text.joinWith]
  | cons first rest =>
      obtain ⟨firstCell, restCells⟩ := List.forall_mem_cons.mp each
      rw [Text.join_with_chars, List.mem_append, List.mem_flatMap]
      rintro (inside | ⟨piece, listed, inside⟩)
      · exact firstCell.unbroken inside
      · obtain ⟨text, member, rfl⟩ := List.mem_map.mp listed
        have within : '\n' ∈ text.toList := by simpa using inside
        exact (restCells text member).unbroken within

theorem line_trimmed (texts : List String) (each : ∀ text ∈ texts, IsCell text) :
    Text.trimChars (Text.joinWith "," texts).toList = (Text.joinWith "," texts).toList := by
  induction texts with
  | nil => rfl
  | cons first rest ih =>
      obtain ⟨firstCell, restCells⟩ := List.forall_mem_cons.mp each
      cases rest with
      | nil => exact firstCell.chars
      | cons second others =>
          obtain ⟨begins, _⟩ := (Text.trim_same_iff _).mp firstCell.chars
          obtain ⟨_, ends⟩ := (Text.trim_same_iff _).mp (ih restCells)
          have chars : (Text.joinWith "," (first :: second :: others)).toList =
              first.toList ++ ',' :: (Text.joinWith "," (second :: others)).toList := by
            simp [Text.joinWith]
          rw [chars, Text.trim_same_iff, List.head?_append, List.getLast?_append, List.getLast?_cons]
          constructor
          · intro c head
            rcases Option.or_eq_some_iff.mp head with inside | ⟨_, comma⟩
            · exact begins c inside
            · cases comma
              decide
          · intro c last
            rw [Option.some_or, Option.mem_some_iff] at last
            cases found : (Text.joinWith "," (second :: others)).toList.getLast? with
            | none =>
                rw [← last, found]
                decide
            | some other =>
                rw [found, Option.getD_some] at last
                exact last ▸ ends other found

theorem line_significant_iff (margin row : String) (blank : ∀ c ∈ margin.toList, Text.isBlank c = true)
    (trimmed : Text.trimChars row.toList = row.toList) :
    isSignificant (margin ++ row) = true ↔ row ≠ "" ∧ row.toList.head? ≠ some '#' := by
  have left : Text.trimLeft row.toList = row.toList :=
    (Text.trim_left_same_iff _).mpr ((Text.trim_same_iff _).mp trimmed).1
  rw [isSignificant, String.toList_append, Text.trim_left_margin _ _ blank, left]
  cases chars : row.toList with
  | nil => simp [String.toList_eq_nil_iff.mp chars]
  | cons c tail =>
      have full : row ≠ "" := fun empty => by simp [empty] at chars
      simp [full]

theorem pair_keys (columns texts : List String) : (pair columns texts).map Prod.fst = columns := by
  fun_induction pair columns texts <;> simp_all

theorem pair_values (columns texts : List String) :
    ∀ entry ∈ pair columns texts, entry.2 = "" ∨ entry.2 ∈ texts := by
  fun_induction pair columns texts with
  | case1 => simp
  | case2 column columns ih => exact List.forall_mem_cons.mpr ⟨.inl rfl, ih⟩
  | case3 column columns text texts ih =>
      refine List.forall_mem_cons.mpr ⟨.inr List.mem_cons_self, fun entry later => ?_⟩
      exact (ih entry later).imp_right (List.mem_cons_of_mem _)

theorem pair_map {α : Type} (items : List α) (column text : α → String) :
    pair (items.map column) (items.map text) = items.map fun item => (column item, text item) := by
  induction items with
  | nil => rfl
  | cons item rest ih => rw [List.map_cons, List.map_cons, pair, ih, List.map_cons]

theorem record_keys (columns : List String) (line : String) :
    (Entries.keys (record columns line)).Nodup ∧
      ∀ key ∈ Entries.keys (record columns line), key ∈ columns := by
  refine ⟨(Entries.merge_sound _).1, fun key member => ?_⟩
  rw [← pair_keys columns (cells line)]
  exact Entries.merge_keys_known _ key member

theorem record_cells (columns : List String) (line : String) (free : '\n' ∉ line.toList) :
    ∀ entry ∈ record columns line, IsCell entry.2 := by
  intro entry member
  obtain ⟨given, paired, same⟩ := (Entries.merge_sound _).2 entry member
  rw [same]
  rcases pair_values columns (cells line) given paired with missing | listed
  · rw [missing]
    exact cell_empty
  · exact cells_cell line free _ listed

theorem record_map {α : Type} (items : List α) (column text : α → String) (line : String)
    (distinct : (items.map column).Nodup) (cut : cells line = items.map text) :
    record (items.map column) line = items.map fun item => (column item, text item) := by
  rw [record, cut, pair_map]
  refine Entries.merge_distinct _ ?_
  rw [Entries.keys, List.map_map]
  exact distinct

theorem named_iff (columns : List String) : emptyColumn? columns = none ↔ "" ∉ columns := by
  rw [emptyColumn?, Option.map_eq_none_iff, List.findIdx?_eq_none_iff]
  constructor
  · intro full there
    simpa using full "" there
  · intro absent name there
    rw [Bool.eq_false_iff, Ne, String.isEmpty_iff]
    rintro rfl
    exact absent there

theorem read_ok_iff (text : String) (records : List Record) :
    read text = .ok records ↔
      ∃ header rows, (Text.lines text).filter isSignificant = header :: rows ∧
        "" ∉ cells header ∧ records = rows.map (record (cells header)) := by
  unfold read
  cases (Text.lines text).filter isSignificant with
  | nil => simp
  | cons header rows =>
      cases position : emptyColumn? (cells header) with
      | none =>
          have full := (named_iff (cells header)).mp position
          simp only [position, List.cons.injEq, Except.ok.injEq]
          constructor
          · rintro rfl
            exact ⟨header, rows, ⟨rfl, rfl⟩, full, rfl⟩
          · rintro ⟨_, _, ⟨rfl, rfl⟩, _, rfl⟩
            rfl
      | some place =>
          simp only [position, List.cons.injEq, reduceCtorEq, false_iff]
          rintro ⟨_, _, ⟨rfl, rfl⟩, full, _⟩
          rw [(named_iff _).mpr full] at position
          cases position

end BrowserFlow.Batch
