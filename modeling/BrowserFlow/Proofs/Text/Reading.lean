import Mathlib.Data.List.Forall2
import Mathlib.Data.List.TakeWhile
import BrowserFlow.Proofs.Text.Pieces
/-! Texts that can be read in one way. A word is told from what stands behind it, and where single things
can be told from their texts, so can sequences of them that are written with a separator. -/
set_option autoImplicit false

namespace BrowserFlow.Text

theorem word_told (p : Char → Bool) (word other rest tail : List Char)
    (inside : ∀ c ∈ word, p c = true) (otherInside : ∀ c ∈ other, p c = true)
    (stop : ∀ c ∈ rest.head?, p c = false) (otherStop : ∀ c ∈ tail.head?, p c = false)
    (same : word ++ rest = other ++ tail) : word = other ∧ rest = tail := by
  have words : word = other := by
    rw [← List.takeWhile_eq_self_iff.mpr inside, ← List.takeWhile_eq_self_iff.mpr otherInside,
      ← take_while_before p word rest stop, ← take_while_before p other tail otherStop, same]
  subst words
  exact ⟨rfl, List.append_cancel_left same⟩

theorem piece_told (separator : Char) (piece other rest tail : List Char) (free : separator ∉ piece)
    (otherFree : separator ∉ other)
    (same : piece ++ separator :: rest = other ++ separator :: tail) : piece = other ∧ rest = tail := by
  have different : ∀ part : List Char, separator ∉ part → ∀ c ∈ part, (c != separator) = true := by
    intro part free c member
    simpa using ne_of_mem_of_not_mem member free
  obtain ⟨pieces, rests⟩ := word_told (· != separator) piece other (separator :: rest)
    (separator :: tail) (different piece free) (different other otherFree) (by simp) (by simp) same
  exact ⟨pieces, (List.cons.inj rests).2⟩

section

variable {Item : Type} (write : Item → List Char) (Related : Item → Item → Prop)

-- In front of texts that stop them, one thing and another are written alike only if they are related.
def Faithful (Stops : List Char → Prop) (one other : Item) : Prop :=
  ∀ rest tail, Stops rest → Stops tail → write one ++ rest = write other ++ tail →
    Related one other ∧ rest = tail

omit write Related in
theorem later_pairs (Holds : Item → Item → Prop) (first second : Item) (ones others : List Item)
    (each : ∀ one ∈ first :: ones, ∀ other ∈ second :: others, Holds one other) :
    ∀ one ∈ ones, ∀ other ∈ others, Holds one other :=
  fun one member other listed =>
    each one (List.mem_cons_of_mem _ member) other (List.mem_cons_of_mem _ listed)

-- What stands between the things of a sequence, what may stop one of them, and what closes the whole.
structure Punctuation (separator : List Char) (Stops Closes : List Char → Prop) : Prop where
  separates : ∀ next, Stops (separator ++ next)
  stops : ∀ rest, Closes rest → Stops rest
  closes : ∀ rest next, Closes rest → rest ≠ separator ++ next

variable (separator : List Char)

def separated (items : List Item) : List Char :=
  items.flatMap fun item => separator ++ write item

def joined : List Item → List Char
  | [] => []
  | first :: rest => write first ++ separated write separator rest

variable {Stops Closes : List Char → Prop} (punctuation : Punctuation separator Stops Closes)

include punctuation

theorem separated_stops (items : List Item) (rest : List Char) (closed : Closes rest) :
    Stops (separated write separator items ++ rest) := by
  cases items with
  | nil => exact punctuation.stops rest closed
  | cons first others =>
      rw [separated, List.flatMap_cons, List.append_assoc, List.append_assoc]
      exact punctuation.separates _

theorem first_faithful (one other : Item) (ones others : List Item)
    (first : Faithful write Related Stops one other)
    (later : Faithful (separated write separator) (List.Forall₂ Related) Closes ones others)
    (rest tail : List Char) (closed : Closes rest) (otherClosed : Closes tail)
    (same : write one ++ (separated write separator ones ++ rest) =
      write other ++ (separated write separator others ++ tail)) :
    List.Forall₂ Related (one :: ones) (other :: others) ∧ rest = tail := by
  obtain ⟨related, behind⟩ := first _ _
    (separated_stops write separator punctuation ones rest closed)
    (separated_stops write separator punctuation others tail otherClosed) same
  obtain ⟨follow, rests⟩ := later rest tail closed otherClosed behind
  exact ⟨.cons related follow, rests⟩

theorem separated_faithful (ones others : List Item)
    (each : ∀ one ∈ ones, ∀ other ∈ others, Faithful write Related Stops one other) :
    Faithful (separated write separator) (List.Forall₂ Related) Closes ones others := by
  induction ones generalizing others with
  | nil =>
      intro rest tail closed _ same
      cases others with
      | nil => exact ⟨.nil, same⟩
      | cons other others =>
          simp only [separated, List.flatMap_nil, List.nil_append, List.flatMap_cons,
            List.append_assoc] at same
          exact absurd same (punctuation.closes rest _ closed)
  | cons one ones ih =>
      intro rest tail closed otherClosed same
      cases others with
      | nil =>
          simp only [separated, List.flatMap_nil, List.nil_append, List.flatMap_cons,
            List.append_assoc] at same
          exact absurd same.symm (punctuation.closes tail _ otherClosed)
      | cons other others =>
          have later := ih others (later_pairs _ one other ones others each)
          simp only [separated, List.flatMap_cons, List.append_assoc] at same
          exact first_faithful write Related separator punctuation one other ones others
            (each one List.mem_cons_self other List.mem_cons_self) later rest tail closed otherClosed
            (List.append_cancel_left same)

theorem joined_faithful (ones others : List Item)
    (begins : ∀ item next, ¬Closes (write item ++ next))
    (each : ∀ one ∈ ones, ∀ other ∈ others, Faithful write Related Stops one other) :
    Faithful (joined write separator) (List.Forall₂ Related) Closes ones others := by
  intro rest tail closed otherClosed same
  cases ones with
  | nil =>
      cases others with
      | nil => exact ⟨.nil, same⟩
      | cons other others =>
          rw [joined, List.nil_append, joined, List.append_assoc] at same
          exact absurd (same ▸ closed) (begins other _)
  | cons one ones =>
      cases others with
      | nil =>
          rw [joined, joined, List.nil_append, List.append_assoc] at same
          exact absurd (same ▸ otherClosed) (begins one _)
      | cons other others =>
          have later := separated_faithful write Related separator punctuation ones others
            (later_pairs _ one other ones others each)
          rw [joined, joined, List.append_assoc, List.append_assoc] at same
          exact first_faithful write Related separator punctuation one other ones others
            (each one List.mem_cons_self other List.mem_cons_self) later rest tail closed otherClosed same

end

end BrowserFlow.Text
