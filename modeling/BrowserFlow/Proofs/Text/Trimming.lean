import Mathlib.Data.List.DropRight
import BrowserFlow.Text.Blank
/-! Trimming. A text is trimmed when it neither begins nor ends with a blank: what trimming gives is, and a
margin of blanks is trimmed away. -/
set_option autoImplicit false

namespace BrowserFlow.Text

theorem trim_left_same_iff (chars : List Char) :
    trimLeft chars = chars ↔ ∀ c ∈ chars.head?, isBlank c = false := by
  cases chars with
  | nil => simp [trimLeft]
  | cons c rest => simp [trimLeft, List.dropWhile_eq_self_iff]

theorem trim_right_same_iff (chars : List Char) :
    trimRight chars = chars ↔ ∀ c ∈ chars.getLast?, isBlank c = false := by
  rw [trimRight, List.reverse_eq_iff, ← List.head?_reverse]
  exact trim_left_same_iff chars.reverse

theorem trim_left_end (chars : List Char) : trimLeft chars <:+ chars :=
  List.dropWhile_suffix _

theorem trim_right_front (chars : List Char) : trimRight chars <+: chars :=
  List.rdropWhile_prefix _ _

theorem trim_same_iff (chars : List Char) :
    trimChars chars = chars ↔
      (∀ c ∈ chars.head?, isBlank c = false) ∧ ∀ c ∈ chars.getLast?, isBlank c = false := by
  rw [← trim_left_same_iff, ← trim_right_same_iff]
  constructor
  · intro same
    have shorter := (trim_right_front (trimLeft chars)).length_le
    rw [← trimChars, same] at shorter
    have left := (trim_left_end chars).eq_of_length_le shorter
    rw [trimChars, left] at same
    exact ⟨left, same⟩
  · rintro ⟨left, right⟩
    rw [trimChars, left, right]

theorem trim_free (chars : List Char) (free : ∀ c ∈ chars, isBlank c = false) :
    trimChars chars = chars :=
  (trim_same_iff chars).mpr
    ⟨fun c first => free c (List.mem_of_head? first), fun c last => free c (List.mem_of_getLast? last)⟩

theorem trim_left_again (chars : List Char) : trimLeft (trimLeft chars) = trimLeft chars :=
  List.dropWhile_idempotent _ _

theorem trim_right_again (chars : List Char) : trimRight (trimRight chars) = trimRight chars :=
  List.rdropWhile_idempotent _ _

theorem trim_again (chars : List Char) : trimChars (trimChars chars) = trimChars chars := by
  refine (trim_same_iff _).mpr ⟨fun c first => ?_, (trim_right_same_iff _).mp (trim_right_again _)⟩
  obtain ⟨rest, whole⟩ := trim_right_front (trimLeft chars)
  have begins := (trim_left_same_iff _).mp (trim_left_again chars)
  rw [← whole, List.head?_append, ← trimChars, Option.mem_def.mp first] at begins
  exact begins c rfl

theorem trim_subset (chars : List Char) : ∀ c ∈ trimChars chars, c ∈ chars := fun _ member =>
  (trim_left_end chars).subset ((trim_right_front _).subset member)

theorem trim_left_margin (margin chars : List Char) (blank : ∀ c ∈ margin, isBlank c = true) :
    trimLeft (margin ++ chars) = trimLeft chars :=
  List.dropWhile_append_of_pos blank

theorem trim_margin (margin chars : List Char) (blank : ∀ c ∈ margin, isBlank c = true) :
    trimChars (margin ++ chars) = trimChars chars := by
  rw [trimChars, trim_left_margin margin chars blank, trimChars]

theorem trim_blank (text : String) (blank : isBlankText text = true) : trim text = "" := by
  have nothing := trim_margin text.toList [] (List.all_eq_true.mp blank)
  rw [List.append_nil] at nothing
  rw [trim, nothing]
  rfl

theorem trim_right_margin (chars margin : List Char) (blank : ∀ c ∈ margin, isBlank c = true) :
    trimRight (chars ++ margin) = trimRight chars := by
  rw [trimRight, List.reverse_append,
    List.dropWhile_append_of_pos fun c member => blank c (List.mem_reverse.mp member), trimRight]

theorem trim_margin_behind (chars margin : List Char) (blank : ∀ c ∈ margin, isBlank c = true) :
    trimChars (chars ++ margin) = trimChars chars := by
  rw [trimChars, trimLeft, List.dropWhile_append]
  split
  · rename_i empty
    have nothing : trimLeft chars = [] := List.isEmpty_iff.mp empty
    rw [List.dropWhile_eq_nil_iff.mpr blank, trimChars, nothing]
  · exact trim_right_margin (trimLeft chars) margin blank

end BrowserFlow.Text
