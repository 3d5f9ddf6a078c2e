import BrowserFlow.Proofs.Text.Pieces
/-! Lines. No line has a line feed in it, and lines that are written one below the other are read as they
were written, but for a carriage return at the end of one. -/
set_option autoImplicit false

namespace BrowserFlow.Text

theorem drop_return_subset (line : List Char) : ∀ c ∈ dropReturn line, c ∈ line := by
  intro c inside
  unfold dropReturn at inside
  split at inside
  · rename_i rest reversed
    rw [List.mem_reverse] at inside
    rw [← List.mem_reverse, reversed]
    exact List.mem_cons_of_mem _ inside
  · exact inside

theorem drop_return_same (line : List Char) (ends : line.getLast? ≠ some '\r') :
    dropReturn line = line := by
  unfold dropReturn
  split
  · rename_i rest reversed
    rw [← List.reverse_reverse line, reversed] at ends
    simp at ends
  · rfl

theorem drop_return_front (line : List Char) : dropReturn line <+: line := by
  unfold dropReturn
  split
  · rename_i rest reversed
    refine ⟨['\r'], ?_⟩
    rw [← List.reverse_reverse line, reversed, List.reverse_cons]
  · exact List.prefix_refl _

theorem drop_return_ended (line : List Char) : dropReturn (line ++ ['\r']) = line := by
  unfold dropReturn
  rw [List.reverse_append]
  exact List.reverse_reverse line

theorem lines_of_pieces_free (separator : Char) (pieces : List (List Char))
    (free : ∀ piece ∈ pieces, separator ∉ piece) :
    ∀ line ∈ linesOfPieces pieces, separator ∉ line := by
  fun_induction linesOfPieces pieces with
  | case1 => simp
  | case2 last _ => simp
  | case3 last _ => exact free
  | case4 piece rest _ ih =>
      obtain ⟨first, others⟩ := List.forall_mem_cons.mp free
      exact List.forall_mem_cons.mpr
        ⟨fun inside => first (drop_return_subset piece separator inside), ih others⟩

theorem lines_free (text : String) : ∀ line ∈ lines text, '\n' ∉ line.toList := by
  obtain ⟨first, rest, cut⟩ := split_at_nonempty '\n' text.toList
  obtain ⟨_, free, frees⟩ := split_at_written '\n' text.toList first rest cut
  intro line listed
  obtain ⟨chars, member, rfl⟩ := List.mem_map.mp listed
  rw [linesOfChars, cut] at member
  rw [String.toList_ofList]
  exact lines_of_pieces_free '\n' _ (List.forall_mem_cons.mpr ⟨free, frees⟩) chars member

theorem lines_of_chars_line (line rest : List Char) (free : '\n' ∉ line) :
    linesOfChars (line ++ '\n' :: rest) = dropReturn line :: linesOfChars rest := by
  obtain ⟨first, others, cut⟩ := split_at_nonempty '\n' rest
  rw [linesOfChars, split_at_piece '\n' line rest free, linesOfChars, cut, linesOfPieces]
  simp

def endings : List String := ["\n", "\r\n"]

theorem line_ended (line ending text : String) (listed : ending ∈ endings)
    (free : '\n' ∉ line.toList) :
    ∃ shown, lines (line ++ ending ++ text) = shown :: lines text ∧ shown.toList <+: line.toList ∧
      (line.toList.getLast? ≠ some '\r' → shown = line) := by
  simp only [endings, List.mem_cons, List.not_mem_nil, or_false] at listed
  rcases listed with rfl | rfl
  · refine ⟨String.ofList (dropReturn line.toList), ?_, ?_, fun ends => ?_⟩
    · have chars : (line ++ "\n" ++ text).toList = line.toList ++ '\n' :: text.toList := by simp
      rw [lines, chars, lines_of_chars_line _ _ free, List.map_cons, ← lines]
    · rw [String.toList_ofList]
      exact drop_return_front _
    · rw [drop_return_same _ ends, String.ofList_toList]
  · refine ⟨line, ?_, List.prefix_refl _, fun _ => rfl⟩
    have chars : (line ++ "\r\n" ++ text).toList = (line.toList ++ ['\r']) ++ '\n' :: text.toList := by
      simp
    have ended : '\n' ∉ line.toList ++ ['\r'] := by simp [free]
    rw [lines, chars, lines_of_chars_line _ _ ended, List.map_cons, ← lines, drop_return_ended,
      String.ofList_toList]

theorem last_line (line : String) (free : '\n' ∉ line.toList) :
    lines line = if line = "" then [] else [line] := by
  rw [lines, linesOfChars, split_at_free '\n' _ free, linesOfPieces]
  by_cases empty : line = ""
  · simp [empty]
  · have full : line.toList.isEmpty = false := by
      rw [List.isEmpty_eq_false_iff, Ne, String.toList_eq_nil_iff]
      exact empty
    simp [empty, full]

inductive Laid : List String → String → Prop where
  | nothing : Laid [] ""
  | last (line : String) : Laid [line] line
  | ended (line ending : String) (lines : List String) (text : String) (listed : ending ∈ endings)
      (rest : Laid lines text) : Laid (line :: lines) (line ++ ending ++ text)

theorem lines_written (rows : List String) (free : ∀ row ∈ rows, '\n' ∉ row.toList)
    (ends : ∀ row ∈ rows, row.toList.getLast? ≠ some '\r') :
    lines (String.join (rows.map (· ++ "\n"))) = rows := by
  induction rows with
  | nil => rfl
  | cons row rest ih =>
      have chars : (String.join ((row :: rest).map (· ++ "\n"))).toList =
          row.toList ++ '\n' :: (String.join (rest.map (· ++ "\n"))).toList := by
        simp
      rw [List.forall_mem_cons] at free ends
      rw [lines, chars, lines_of_chars_line row.toList _ free.1, drop_return_same row.toList ends.1,
        List.map_cons, String.ofList_toList, ← lines, ih free.2 ends.2]

end BrowserFlow.Text
