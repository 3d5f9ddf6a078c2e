import Mathlib.Data.List.Basic
import BrowserFlow.Text.Blank
import BrowserFlow.Text.Lines
import BrowserFlow.Text.Word
/-! Cutting texts. Cut at a separator, the pieces are the one way to write a text as pieces without the
separator, each but the first behind a separator. -/
set_option autoImplicit false

namespace BrowserFlow.Text

theorem take_while_stop (p : Char → Bool) (front rest : List Char) (stop : Char)
    (inside : ∀ c ∈ front, p c = true) (outside : p stop = false) :
    (front ++ stop :: rest).takeWhile p = front := by
  rw [List.takeWhile_append_of_pos inside]
  simp [outside]

theorem drop_while_stop (p : Char → Bool) (front rest : List Char) (stop : Char)
    (inside : ∀ c ∈ front, p c = true) (outside : p stop = false) :
    (front ++ stop :: rest).dropWhile p = stop :: rest := by
  rw [List.dropWhile_append_of_pos inside]
  simp [outside]

theorem take_while_before (p : Char → Bool) (chars rest : List Char)
    (stop : ∀ c ∈ rest.head?, p c = false) : (chars ++ rest).takeWhile p = chars.takeWhile p := by
  rw [List.takeWhile_append]
  split
  · rename_i whole
    have stopped : rest.takeWhile p = [] := by
      cases rest with
      | nil => rfl
      | cons c tail => simp [stop c rfl]
    rw [stopped, List.append_nil]
    exact ((List.takeWhile_prefix p).eq_of_length whole).symm
  · rfl

theorem drop_while_before (p : Char → Bool) (chars rest : List Char)
    (stop : ∀ c ∈ rest.head?, p c = false) :
    (chars ++ rest).dropWhile p = chars.dropWhile p ++ rest := by
  rw [List.dropWhile_append]
  split
  · rename_i nothing
    rw [List.isEmpty_iff.mp nothing, List.nil_append]
    cases rest with
    | nil => rfl
    | cons c tail => simp [stop c rfl]
  · rfl

theorem free_of_class (test : Char → Bool) (word : List Char) (inside : ∀ c ∈ word, test c = true)
    (c : Char) (foreign : test c = false) : c ∉ word := by
  intro member
  rw [inside c member] at foreign
  cases foreign

theorem identifier_continues (word : List Char) (valid : isIdentifier word = true) :
    ∀ c ∈ word, continuesIdentifier c = true := by
  cases word with
  | nil => simp
  | cons first rest =>
      simp only [isIdentifier, Bool.and_eq_true, List.all_eq_true] at valid
      intro c member
      cases List.mem_cons.mp member with
      | inr later => exact valid.2 c later
      | inl same =>
          have starts := valid.1
          simp only [startsIdentifier, Bool.or_eq_true] at starts
          simp only [same, continuesIdentifier, Bool.or_eq_true]
          exact starts.elim (fun letter => Or.inl (Or.inl letter)) Or.inr

theorem digits_continue (word : List Char) (valid : isDigits word = true) :
    ∀ c ∈ word, continuesIdentifier c = true := by
  simp only [isDigits, Bool.and_eq_true, List.all_eq_true] at valid
  intro c member
  simp [continuesIdentifier, valid.2 c member]

theorem identifier_unblank (c : Char) (continues : continuesIdentifier c = true) :
    isBlank c = false := by
  simp only [continuesIdentifier, isLetter, isDigit, Bool.or_eq_true, Bool.and_eq_true,
    decide_eq_true_iff, beq_iff_eq, Char.le_def, UInt32.le_iff_toNat_le] at continues
  simp only [isBlank, Bool.or_eq_false_iff, Bool.and_eq_false_iff, decide_eq_false_iff_not,
    beq_eq_false_iff_ne]
  have toNat : c.toNat = c.val.toNat := rfl
  rcases continues with ((small | capital) | digit) | rfl
  · simp at small
    omega
  · simp at capital
    omega
  · simp at digit
    omega
  · decide

theorem split_at_nonempty (separator : Char) (chars : List Char) :
    ∃ first rest, splitAt separator chars = first :: rest := by
  cases chars with
  | nil => exact ⟨[], [], rfl⟩
  | cons c tail =>
      rw [splitAt]
      split
      · exact ⟨[], _, rfl⟩
      · split
        · exact ⟨[c], [], rfl⟩
        · exact ⟨_, _, rfl⟩

theorem split_at_free (separator : Char) (piece : List Char) (free : separator ∉ piece) :
    splitAt separator piece = [piece] := by
  induction piece with
  | nil => rfl
  | cons c rest ih =>
      simp only [List.mem_cons, not_or] at free
      rw [splitAt, if_neg (Ne.symm free.1), ih free.2]

theorem split_at_piece (separator : Char) (piece rest : List Char) (free : separator ∉ piece) :
    splitAt separator (piece ++ separator :: rest) = piece :: splitAt separator rest := by
  induction piece with
  | nil => simp [splitAt]
  | cons c tail ih =>
      simp only [List.mem_cons, not_or] at free
      rw [List.cons_append, splitAt, if_neg (Ne.symm free.1), ih free.2]

theorem split_at_written (separator : Char) (chars first : List Char) (rest : List (List Char))
    (cut : splitAt separator chars = first :: rest) :
    chars = first ++ rest.flatMap (separator :: ·) ∧
      separator ∉ first ∧ ∀ piece ∈ rest, separator ∉ piece := by
  induction chars generalizing first rest with
  | nil =>
      simp only [splitAt, List.cons.injEq] at cut
      simp [← cut.1, ← cut.2]
  | cons c tail ih =>
      obtain ⟨piece, others, pieces⟩ := split_at_nonempty separator tail
      obtain ⟨written, free, frees⟩ := ih piece others pieces
      by_cases same : c = separator
      · rw [splitAt, if_pos same, pieces, List.cons.injEq] at cut
        obtain ⟨rfl, rfl⟩ := cut
        refine ⟨by simp [same, written], by simp, ?_⟩
        simpa using And.intro free frees
      · rw [splitAt, if_neg same, pieces, List.cons.injEq] at cut
        obtain ⟨rfl, rfl⟩ := cut
        refine ⟨by rw [written]; rfl, ?_, frees⟩
        simpa [Ne.symm same] using free

theorem split_at_iff (separator : Char) (chars first : List Char) (rest : List (List Char)) :
    splitAt separator chars = first :: rest ↔
      chars = first ++ rest.flatMap (separator :: ·) ∧
        separator ∉ first ∧ ∀ piece ∈ rest, separator ∉ piece := by
  refine ⟨split_at_written separator chars first rest, ?_⟩
  rintro ⟨rfl, free, frees⟩
  induction rest generalizing first with
  | nil => simpa using split_at_free separator first free
  | cons piece others ih =>
      have pieceFree : separator ∉ piece := frees piece List.mem_cons_self
      rw [List.flatMap_cons, List.cons_append, split_at_piece separator first _ free,
        ih piece pieceFree fun other member => frees other (List.mem_cons_of_mem _ member)]

theorem split_at_append (separator : Char) (front rest : List Char) :
    splitAt separator (front ++ separator :: rest) = splitAt separator front ++ splitAt separator rest := by
  induction front with
  | nil => simp [splitAt]
  | cons c tail ih =>
      obtain ⟨piece, others, pieces⟩ := split_at_nonempty separator tail
      by_cases same : c = separator
      · rw [List.cons_append, splitAt, splitAt, if_pos same, if_pos same, ih, List.cons_append]
      · rw [List.cons_append, splitAt, splitAt, if_neg same, if_neg same, ih, pieces]
        rfl

theorem split_free (separator : Char) (text : String) :
    ∀ piece ∈ split separator text, separator ∉ piece.toList := by
  obtain ⟨first, rest, cut⟩ := split_at_nonempty separator text.toList
  obtain ⟨_, free, frees⟩ := split_at_written separator text.toList first rest cut
  rw [split, cut]
  simpa using And.intro free frees

theorem split_at_before (separator : Char) (front chars first : List Char) (rest : List (List Char))
    (free : separator ∉ front) (cut : splitAt separator chars = first :: rest) :
    splitAt separator (front ++ chars) = (front ++ first) :: rest := by
  induction front with
  | nil => exact cut
  | cons c tail ih =>
      simp only [List.mem_cons, not_or] at free
      rw [List.cons_append, splitAt, if_neg (Ne.symm free.1), ih free.2]
      rfl

theorem split_subset (separator : Char) (text : String) :
    ∀ piece ∈ split separator text, ∀ c ∈ piece.toList, c ∈ text.toList := by
  obtain ⟨first, rest, cut⟩ := split_at_nonempty separator text.toList
  obtain ⟨written, _, _⟩ := split_at_written separator text.toList first rest cut
  rw [split, cut, written]
  intro piece listed c inside
  obtain ⟨chars, member, rfl⟩ := List.mem_map.mp listed
  rw [String.toList_ofList] at inside
  cases List.mem_cons.mp member with
  | inl front => exact List.mem_append_left _ (front ▸ inside)
  | inr later =>
      exact List.mem_append_right _ (List.mem_flatMap.mpr ⟨chars, later, List.mem_cons_of_mem _ inside⟩)

theorem join_with_chars (separator first : String) (rest : List String) :
    (joinWith separator (first :: rest)).toList =
      first.toList ++ (rest.map String.toList).flatMap (separator.toList ++ ·) := by
  induction rest generalizing first with
  | nil => simp [joinWith]
  | cons second rest ih => simp [joinWith, ih second]

theorem split_joined_iff (separator : Char) (mark text : String) (pieces : List String)
    (single : mark.toList = [separator]) :
    split separator text = pieces ↔
      pieces ≠ [] ∧ (∀ piece ∈ pieces, separator ∉ piece.toList) ∧ text = joinWith mark pieces := by
  constructor
  · rintro rfl
    obtain ⟨first, rest, cut⟩ := split_at_nonempty separator text.toList
    obtain ⟨written, _, _⟩ := split_at_written separator text.toList first rest cut
    refine ⟨by simp [split, cut], split_free separator text, String.toList_inj.mp ?_⟩
    rw [split, cut, List.map_cons, join_with_chars, written, single]
    simp [Function.comp_def]
  · rintro ⟨full, free, rfl⟩
    obtain ⟨first, rest, rfl⟩ := List.exists_cons_of_ne_nil full
    obtain ⟨firstFree, restFree⟩ := List.forall_mem_cons.mp free
    have cut := (split_at_iff separator (joinWith mark (first :: rest)).toList first.toList
      (rest.map String.toList)).mpr
      ⟨by rw [join_with_chars, single]; rfl, firstFree, List.forall_mem_map.mpr restFree⟩
    rw [split, cut]
    simp [Function.comp_def]

end BrowserFlow.Text
