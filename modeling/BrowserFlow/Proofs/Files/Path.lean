import BrowserFlow.Files.Path
import BrowserFlow.Proofs.Text.Pieces
/-! The parts of paths. A path taken from another one goes on from it, by its components behind those of the
other, unless it is absolute; a path that ends in a name after a slash has that name, and no name has a
slash in it. -/
set_option autoImplicit false

namespace BrowserFlow

namespace Path

theorem join_empty (path : String) : join "" path = path := by
  simp [join]

theorem join_replaced (base path : String) (absolute : isAbsolute path = true) :
    join base path = path := by
  simp [join, absolute]

theorem join_cut (base path : String) (given : base ≠ "") (relative : isAbsolute path = false) :
    ∃ front, (join base path).toList = front ++ separator :: path.toList ∧
      (base.toList = front ∨ base.toList = front ++ [separator]) := by
  have more : base.isEmpty = false := by simpa using given
  unfold join
  rw [relative, more]
  simp only [Bool.or_self, Bool.false_eq_true, if_false]
  split
  · rename_i slash
    have closed : base.toList.getLast? = some separator := by simpa [endsWithSlash] using slash
    have written : base.toList = base.toList.dropLast ++ [separator] :=
      (List.dropLast_append_getLast? _ closed).symm
    exact ⟨base.toList.dropLast, by rw [String.toList_append, List.append_cons, ← written], .inr written⟩
  · exact ⟨base.toList, by simp [separator], .inl rfl⟩

theorem join_absolute (base path : String) (relative : isAbsolute path = false) :
    isAbsolute (join base path) = isAbsolute base := by
  by_cases given : base = ""
  · rw [given, join_empty, relative]
    rfl
  · obtain ⟨front, joined, same | closed⟩ := join_cut base path given relative
    · cases front with
      | nil => exact absurd (String.toList_eq_nil_iff.mp same) given
      | cons c tail => simp [isAbsolute, joined, same]
    · cases front with
      | nil => simp [isAbsolute, joined, closed]
      | cons c tail => simp [isAbsolute, joined, closed]

-- The components by which a path goes on from another one, where a dot that opens it names nothing.
def onward (path : String) : List String :=
  (components path).filter (· != ".")

theorem onward_pieces (path : String) :
    onward path = (Text.split separator path).filter fun piece => !piece.isEmpty && piece != "." := by
  unfold onward components
  rw [List.filter_append, List.filter_filter]
  split <;> simp [Bool.and_comm]

theorem components_opening (path : String) :
    components path =
      (if (Text.split separator path).head? == some "." then ["."] else []) ++ onward path := by
  rw [onward_pieces]
  rfl

theorem components_append (front rest : List Char) :
    components (String.ofList (front ++ separator :: rest)) =
      components (String.ofList front) ++ onward (String.ofList rest) := by
  obtain ⟨first, others, cut⟩ := Text.split_at_nonempty separator front
  have pieces : Text.split separator (String.ofList (front ++ separator :: rest)) =
      Text.split separator (String.ofList front) ++ Text.split separator (String.ofList rest) := by
    simp [Text.split, Text.split_at_append]
  have opening : (Text.split separator (String.ofList (front ++ separator :: rest))).head? =
      (Text.split separator (String.ofList front)).head? := by
    rw [pieces]
    simp [Text.split, cut]
  rw [components_opening, opening, onward_pieces, pieces, List.filter_append, ← onward_pieces,
    ← onward_pieces, ← List.append_assoc, ← components_opening]

theorem components_slash (front : List Char) :
    components (String.ofList (front ++ [separator])) = components (String.ofList front) := by
  rw [components_append]
  simp [onward, components, Text.split, Text.splitAt]

theorem absolute_onward (path : String) (absolute : isAbsolute path = true) :
    onward path = components path := by
  obtain ⟨rest, chars⟩ := List.head?_eq_some_iff.mp (beq_iff_eq.mp absolute)
  rw [components_opening]
  simp [Text.split, chars, Text.splitAt]

-- A path that goes on from another one: it starts where that one does, at the root or not, and has that
-- one's components before those that lead on.
structure GoesOn (base path reached : String) : Prop where
  start : isAbsolute reached = isAbsolute base
  components : components reached = components base ++ onward path

theorem join_goes_on (base path : String) (given : base ≠ "") (relative : isAbsolute path = false) :
    GoesOn base path (join base path) := by
  refine ⟨join_absolute base path relative, ?_⟩
  obtain ⟨front, joined, ends⟩ := join_cut base path given relative
  have bare : components base = components (String.ofList front) := by
    rw [← @String.ofList_toList base]
    rcases ends with same | closed
    · rw [same]
    · rw [closed, components_slash]
  rw [← @String.ofList_toList (join base path), joined, components_append, bare, String.ofList_toList]

structure IsRoot (path : String) : Prop where
  absolute : isAbsolute path = true
  bare : components path = []

theorem join_goes_on_iff (base path : String) (given : base ≠ "") :
    GoesOn base path (join base path) ↔ isAbsolute path = false ∨ IsRoot base := by
  cases absolute : isAbsolute path with
  | false => exact iff_of_true (join_goes_on base path given absolute) (.inl rfl)
  | true =>
      rw [join_replaced base path absolute]
      constructor
      · rintro ⟨start, parts⟩
        rw [absolute_onward path absolute] at parts
        exact .inr ⟨start.symm.trans absolute, List.self_eq_append_left.mp parts⟩
      · rintro (relative | ⟨root, bare⟩)
        · cases relative
        · exact ⟨absolute.trans root.symm, by rw [bare, absolute_onward path absolute, List.nil_append]⟩

structure IsName (name : String) : Prop where
  free : separator ∉ name.toList
  nonempty : name ≠ ""
  notHere : name ≠ "."
  notUp : name ≠ ".."

def EndsIn (path ending : String) : Prop :=
  path = ending ∨ ∃ front, path.toList = front ++ separator :: ending.toList

theorem join_ends_in (base path : String) : EndsIn (join base path) path := by
  by_cases alone : (isAbsolute path || base.isEmpty) = true
  · exact .inl (by rw [join, if_pos alone])
  · simp only [Bool.or_eq_true, not_or, Bool.not_eq_true] at alone
    obtain ⟨front, joined, _⟩ := join_cut base path (by simpa using alone.2) alone.1
    exact .inr ⟨front, joined⟩

theorem EndsIn.behind {path ending name : String} (ends : EndsIn path ending) (front : List Char)
    (written : ending.toList = front ++ separator :: name.toList) : EndsIn path name := by
  rcases ends with rfl | ⟨before, reached⟩
  · exact .inr ⟨front, written⟩
  · exact .inr ⟨before ++ separator :: front, by simp [reached, written]⟩

theorem last_separator (path : String) (slash : separator ∈ path.toList) :
    ∃ front name, path.toList = front ++ separator :: String.toList name ∧
      separator ∉ String.toList name := by
  obtain ⟨name, front, reversed, free⟩ := List.eq_append_cons_of_mem (List.mem_reverse.mpr slash)
  refine ⟨front.reverse, String.ofList name.reverse, ?_, by simpa using free⟩
  rw [← List.reverse_reverse path.toList, reversed]
  simp

theorem EndsIn.pieces {path name : String} (ends : EndsIn path name) (free : separator ∉ name.toList) :
    ∃ before, Text.split separator path = before ++ [name] := by
  rcases ends with rfl | ⟨front, reached⟩
  · exact ⟨[], by simp [Text.split, Text.split_at_free separator path.toList free]⟩
  · refine ⟨(Text.splitAt separator front).map String.ofList, ?_⟩
    rw [Text.split, reached, Text.split_at_append, Text.split_at_free separator _ free]
    simp

theorem EndsIn.file_name {path name : String} (ends : EndsIn path name) (proper : IsName name) :
    fileName? path = some name := by
  obtain ⟨before, pieces⟩ := ends.pieces proper.free
  have last : (components path).getLast? = some name := by
    simp [components, pieces, List.filter_append, proper.nonempty, proper.notHere]
  simp [fileName?, last, proper.notHere, proper.notUp]

theorem file_name_free (path name : String) (named : fileName? path = some name) :
    separator ∉ name.toList := by
  obtain ⟨last, _⟩ := Option.filter_eq_some_iff.mp named
  rcases List.mem_append.mp (List.mem_of_getLast? last) with opening | piece
  · have same : name = "." := by
      split at opening
      · simpa using opening
      · cases opening
    rw [same]
    decide
  · exact Text.split_free separator path name (List.mem_of_mem_filter piece)

theorem split_extension_inside (name : String) :
    ∀ c ∈ (splitExtension name).1.toList, c ∈ name.toList := by
  intro c inside
  unfold splitExtension at inside
  simp only at inside
  split at inside
  · simp only [String.toList_ofList, List.mem_reverse] at inside
    exact List.mem_reverse.mp ((List.dropWhile_sublist _).mem (List.mem_of_mem_drop inside))
  · exact inside

end Path

end BrowserFlow
