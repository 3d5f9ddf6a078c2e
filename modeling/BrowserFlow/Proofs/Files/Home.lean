import BrowserFlow.Proofs.Files.Path
import BrowserFlow.Proofs.Text.Trimming
/-! Paths that begin at the home directory. Once the home directory stands in a path, the path is absolute
and there is nothing left to put in. -/
set_option autoImplicit false

namespace BrowserFlow

namespace Path

theorem join_front (base path : String) (absolute : isAbsolute base = true) :
    (isAbsolute path = true ∧ join base path = path) ∨
      ∃ front, (join base path).toList = front ++ path.toList ∧
        front.head? = some separator ∧ front.getLast? = some separator := by
  have begins : base.toList.head? = some separator := by simpa [isAbsolute] using absolute
  have given : base ≠ "" := by
    rintro rfl
    cases begins
  cases kind : isAbsolute path with
  | true => exact .inl ⟨rfl, join_replaced base path kind⟩
  | false =>
      obtain ⟨front, joined, ends⟩ := join_cut base path given kind
      refine .inr ⟨front ++ [separator], by simp [joined], ?_, by simp⟩
      rcases ends with same | closed
      · simp [← same, begins]
      · rw [← closed, begins]

theorem join_from_absolute (base path : String) (absolute : isAbsolute base = true) :
    isAbsolute (join base path) = true := by
  rcases join_front base path absolute with ⟨given, same⟩ | ⟨front, chars, begins, _⟩
  · rw [same]
    exact given
  · simp [isAbsolute, chars, begins]

theorem join_trimmed (base path : String) (absolute : isAbsolute base = true)
    (last : ∀ c ∈ path.toList.getLast?, Text.isBlank c = false) :
    Text.trim (join base path) = join base path := by
  have solid : Text.isBlank separator = false := by decide
  have begins : (join base path).toList.head? = some separator := by
    simpa [isAbsolute] using join_from_absolute base path absolute
  have same : Text.trimChars (join base path).toList = (join base path).toList := by
    refine (Text.trim_same_iff _).mpr ⟨fun c first => ?_, fun c ends => ?_⟩
    · rw [begins] at first
      cases first
      exact solid
    · rcases join_front base path absolute with ⟨_, same⟩ | ⟨front, chars, _, closed⟩
      · rw [same] at ends
        exact last c ends
      · rw [chars, List.getLast?_append, closed] at ends
        cases there : path.toList.getLast? with
        | none =>
            rw [there] at ends
            cases ends
            exact solid
        | some d =>
            rw [there] at ends
            exact last c (there ▸ ends)
  rw [Text.trim, same, String.ofList_toList]

theorem expand_joins (home path rest : String) (tilde : Text.trim path = "~/" ++ rest) :
    expandHome home path = join home rest := by
  simp [expandHome, tilde]

theorem expand_absolute (home path : String) (absolute : isAbsolute path = true)
    (trimmed : Text.trim path = path) : expandHome home path = path := by
  have other : ∀ rest, path.toList ≠ '~' :: rest := by
    intro rest chars
    rw [isAbsolute, chars] at absolute
    cases absolute
  rw [expandHome, trimmed]
  split
  · rename_i chars
    exact absurd chars (other _)
  · rename_i chars
    exact absurd chars (other _)
  · rename_i chars
    exact absurd chars (other _)
  · rfl

theorem trim_twice (text : String) : Text.trim (Text.trim text) = Text.trim text := by
  rw [Text.trim, Text.trim, String.toList_ofList, Text.trim_again]

theorem rest_last (path : String) (mark : Char) (rest : List Char)
    (chars : (Text.trim path).toList = '~' :: mark :: rest) :
    ∀ c ∈ (String.ofList rest).toList.getLast?, Text.isBlank c = false := by
  have trimmed : Text.trimChars (Text.trim path).toList = (Text.trim path).toList := by
    rw [Text.trim, String.toList_ofList, Text.trim_again]
  intro c last
  rw [String.toList_ofList] at last
  refine ((Text.trim_same_iff _).mp trimmed).2 c ?_
  rw [chars, List.getLast?_cons_cons]
  cases rest with
  | nil => cases last
  | cons first others => exact last

theorem expand_again (home path : String) (absolute : isAbsolute home = true)
    (trimmed : Text.trim home = home) :
    expandHome home (expandHome home path) = expandHome home path := by
  have joined : ∀ mark rest, (Text.trim path).toList = '~' :: mark :: rest →
      expandHome home (join home (String.ofList rest)) = join home (String.ofList rest) :=
    fun mark rest chars => expand_absolute home _ (join_from_absolute home _ absolute)
      (join_trimmed home _ absolute (rest_last path mark rest chars))
  generalize expanded : expandHome home path = result
  rw [expandHome] at expanded
  split at expanded
  · subst expanded
    exact expand_absolute home home absolute trimmed
  · rename_i rest chars
    subst expanded
    exact joined _ rest chars
  · rename_i rest chars
    subst expanded
    exact joined _ rest chars
  · rename_i alone slash backslash
    subst expanded
    rw [expandHome, trim_twice]
    split
    · rename_i chars
      exact absurd chars alone
    · rename_i rest chars
      exact absurd chars (slash rest)
    · rename_i rest chars
      exact absurd chars (backslash rest)
    · rfl

end Path

end BrowserFlow
