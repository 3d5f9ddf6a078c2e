import BrowserFlow.Files.FileTree
import BrowserFlow.Proofs.Success
/-! What is in a tree of files after something was put into it: all that was there is there still, and a
file that was written is found by its path, with the text that was written. -/
set_option autoImplicit false

namespace BrowserFlow.FileTree

theorem lookup_without (place other : Place) (nodes : List (Place × Node)) (different : other ≠ place) :
    (nodes.filter fun entry => entry.1 != place).lookup other = nodes.lookup other := by
  induction nodes with
  | nil => rfl
  | cons entry rest ih =>
      obtain ⟨found, node⟩ := entry
      by_cases same : found = place
      · have apart : (other == found) = false := by simpa [same] using different
        rw [List.filter_cons_of_neg (by simp [same]), List.lookup_cons, apart, ih]
      · rw [List.filter_cons_of_pos (by simpa using same), List.lookup_cons, List.lookup_cons, ih]

theorem node_put_same (tree : FileTree) (place : Place) (node : Node)
    (outside : place.isPrefixOf tree.workingDirectory = false) :
    (tree.put place node).node? place = some node := by
  simp [node?, put, outside]

theorem node_put_other (tree : FileTree) (place other : Place) (node : Node)
    (different : other ≠ place) : (tree.put place node).node? other = tree.node? other := by
  have apart : (other == place) = false := by simpa using different
  simp only [node?, put, List.lookup_cons, apart, lookup_without place other tree.nodes different]

theorem outside_working_directory (tree : FileTree) (place : Place)
    (free : tree.node? place ≠ some .directory) :
    place.isPrefixOf tree.workingDirectory = false := by
  cases inside : place.isPrefixOf tree.workingDirectory with
  | false => rfl
  | true => exact absurd (by rw [node?, if_pos inside]) free

structure Extends (tree after : FileTree) : Prop where
  workingDirectory : after.workingDirectory = tree.workingDirectory
  directories : ∀ place, tree.node? place = some .directory → after.node? place = some .directory
  nodes : ∀ place, (tree.node? place).isSome → (after.node? place).isSome

theorem put_extends (tree : FileTree) (place : Place) (node : Node)
    (free : tree.node? place ≠ some .directory) : Extends tree (tree.put place node) where
  workingDirectory := rfl
  directories := fun other directory => by
    have different : other ≠ place := fun same => free (same ▸ directory)
    rw [node_put_other tree place other node different, directory]
  nodes := fun other there => by
    by_cases same : other = place
    · rw [same, node_put_same tree place node (outside_working_directory tree place free)]
      rfl
    · rwa [node_put_other tree place other node same]

theorem follow_ok_iff (tree : FileTree) (place inner : Place) (name : String) :
    tree.follow place name = .ok inner ↔ tree.node? place = some .directory ∧
      (name = "." ∧ place = inner ∨ name = ".." ∧ place.dropLast = inner ∨
        name ≠ "." ∧ name ≠ ".." ∧ name.utf8ByteSize ≤ nameLimit ∧
          (tree.node? (place ++ [name])).isSome ∧ place ++ [name] = inner) := by
  unfold follow
  cases tree.node? place with
  | none => simp
  | some node =>
      cases node with
      | file text => simp
      | directory =>
          by_cases here : name = "."
          · simp [here]
          · by_cases up : name = ".."
            · simp [up]
            · by_cases long : nameLimit < name.utf8ByteSize
              · simp [here, up, long, Nat.not_le.mpr long]
              · cases there : (tree.node? (place ++ [name])).isSome <;>
                  simp [here, up, long, there, Nat.not_lt.mp long]

theorem follow_extended {tree after : FileTree} (extended : Extends tree after) (place inner : Place)
    (name : String) (followed : tree.follow place name = .ok inner) :
    after.follow place name = .ok inner := by
  rw [follow_ok_iff] at followed ⊢
  refine ⟨extended.directories place followed.1, followed.2.imp_right (Or.imp_right ?_)⟩
  rintro ⟨here, up, short, there, same⟩
  exact ⟨here, up, short, extended.nodes _ there, same⟩

theorem follow_all_extended {tree after : FileTree} (extended : Extends tree after)
    (names : List String) (place inner : Place) (followed : tree.followAll place names = .ok inner) :
    after.followAll place names = .ok inner := by
  induction names generalizing place with
  | nil => exact followed
  | cons name rest ih =>
      rw [followAll] at followed ⊢
      cases first : tree.follow place name with
      | error error => simp [first] at followed
      | ok next =>
          rw [first] at followed
          rw [follow_extended extended place next name first]
          exact ih next followed

theorem follow_all_append (tree : FileTree) (names : List String) (name : String)
    (place middle : Place) (followed : tree.followAll place names = .ok middle) :
    tree.followAll place (names ++ [name]) = tree.follow middle name := by
  induction names generalizing place with
  | nil =>
      cases followed
      rw [List.nil_append, followAll]
      cases tree.follow middle name <;> rfl
  | cons first rest ih =>
      rw [followAll] at followed
      rw [List.cons_append, followAll]
      cases next : tree.follow place first with
      | error error => simp [next] at followed
      | ok inner =>
          rw [next] at followed
          exact ih inner followed

theorem follow_all_last (tree : FileTree) (names : List String) (name : String) (place inner : Place)
    (followed : tree.followAll place (names ++ [name]) = .ok inner) :
    ∃ middle, tree.followAll place names = .ok middle ∧ tree.follow middle name = .ok inner := by
  induction names generalizing place with
  | nil =>
      rw [List.nil_append, followAll] at followed
      cases first : tree.follow place name with
      | error error => simp [first] at followed
      | ok next =>
          rw [first] at followed
          exact ⟨place, rfl, first.trans followed⟩
  | cons other rest ih =>
      rw [List.cons_append, followAll] at followed
      rw [followAll]
      cases first : tree.follow place other with
      | error error => simp [first] at followed
      | ok next =>
          rw [first] at followed
          exact ih next followed

theorem resolve_ok_iff (tree : FileTree) (path : String) (place : Place) :
    tree.resolve path = .ok place ↔ checkPath path = .ok () ∧ path.isEmpty = false ∧
      tree.followAll (tree.origin path) (steps path) = .ok place := by
  unfold resolve
  rw [bind_ok_iff]
  cases path.isEmpty with
  | true => simp
  | false =>
      constructor
      · rintro ⟨⟨⟩, checked, followed⟩
        exact ⟨checked, rfl, followed⟩
      · rintro ⟨checked, _, followed⟩
        exact ⟨(), checked, followed⟩

theorem file_iff (tree : FileTree) (path : String) :
    tree.isFile path = true ↔
      ∃ place text, tree.resolve path = .ok place ∧ tree.node? place = some (.file text) := by
  unfold isFile find?
  cases tree.resolve path with
  | error error => simp
  | ok place =>
      cases found : tree.node? place with
      | none => simp [found]
      | some node => cases node <;> simp [found]

-- All that stands above a place is a directory. This holds of the origin of a path and of all that is
-- reached from there, in any tree.
def UnderDirectories (tree : FileTree) (place : Place) : Prop :=
  ∀ above, above <+: place → above ≠ place → tree.node? above = some .directory

theorem origin_under_directories (tree : FileTree) (path : String) :
    tree.UnderDirectories (tree.origin path) := by
  intro above inside _
  have within : above <+: tree.workingDirectory := by
    unfold origin at inside
    split at inside
    · exact inside.trans List.nil_prefix
    · exact inside
  rw [node?, if_pos (List.isPrefixOf_iff_prefix.mpr within)]

theorem parent_under_directories (tree : FileTree) (place : Place)
    (under : tree.UnderDirectories place) : tree.UnderDirectories place.dropLast := by
  intro above inside apart
  refine under above (inside.trans place.dropLast_prefix) fun same => apart ?_
  exact inside.eq_of_length_le (by rw [same, List.length_dropLast]; omega)

theorem parent_directory (tree : FileTree) (place : Place) (under : tree.UnderDirectories place)
    (directory : tree.node? place = some .directory) :
    tree.node? place.dropLast = some .directory := by
  by_cases same : place.dropLast = place
  · rwa [same]
  · exact under place.dropLast place.dropLast_prefix same

theorem follow_under_directories (tree : FileTree) (place inner : Place) (name : String)
    (under : tree.UnderDirectories place) (followed : tree.follow place name = .ok inner) :
    tree.UnderDirectories inner := by
  obtain ⟨directory, ⟨_, rfl⟩ | ⟨_, rfl⟩ | ⟨_, _, _, _, rfl⟩⟩ := (follow_ok_iff _ _ _ _).mp followed
  · exact under
  · exact parent_under_directories tree place under
  · intro above inside apart
    rcases List.prefix_concat_iff.mp inside with same | inside
    · exact absurd same apart
    · by_cases same : above = place
      · rwa [same]
      · exact under above inside same

theorem follow_all_under_directories (tree : FileTree) (names : List String) (place inner : Place)
    (under : tree.UnderDirectories place) (followed : tree.followAll place names = .ok inner) :
    tree.UnderDirectories inner := by
  induction names generalizing place with
  | nil =>
      cases followed
      exact under
  | cons name rest ih =>
      rw [followAll] at followed
      cases first : tree.follow place name with
      | error error => simp [first] at followed
      | ok next =>
          rw [first] at followed
          exact ih next (follow_under_directories tree place next name under first) followed

def pieces (path : String) : List String :=
  (Text.split Path.separator path).filter fun piece => !piece.isEmpty

structure Target (tree : FileTree) (path : String) (place : Place) : Prop where
  checked : checkPath path = .ok ()
  named : path.isEmpty = false
  unslashed : Path.endsWithSlash path = false
  reached : ∃ before name directory, pieces path = before ++ [name] ∧
    name ≠ "." ∧ name ≠ ".." ∧ name.utf8ByteSize ≤ nameLimit ∧
    tree.followAll (tree.origin path) before = .ok directory ∧
    tree.node? directory = some .directory ∧ place = directory ++ [name]

-- A single dot or two of them lead to a directory wherever they are followed from, as what stands above
-- a place that was reached is a directory.
theorem destination_target (tree : FileTree) (path : String) (place : Place)
    (found : tree.destination path = .ok place) (free : tree.node? place ≠ some .directory) :
    Target tree path place := by
  obtain ⟨⟨⟩, checked, found⟩ := (bind_ok_iff _ _ _).mp found
  split at found
  · split at found <;> cases found
  · rename_i name before reversed
    have parted : pieces path = before.reverse ++ [name] := by
      rw [← List.reverse_reverse (pieces path)]
      exact congrArg List.reverse reversed |>.trans List.reverse_cons
    have named : path.isEmpty = false := by
      cases empty : path.isEmpty with
      | false => rfl
      | true =>
          have nothing : pieces path = [] := by rw [String.isEmpty_iff.mp empty]; rfl
          simp [nothing] at parted
    obtain ⟨directory, followed, found⟩ := (bind_ok_iff _ _ _).mp found
    have under := follow_all_under_directories tree _ _ _ (origin_under_directories tree path) followed
    split at found
    · rename_i isDirectory
      by_cases here : name = "."
      · rw [if_pos here] at found
        cases found
        exact absurd isDirectory free
      · by_cases up : name = ".."
        · rw [if_neg here, if_pos up] at found
          cases found
          exact absurd (parent_directory tree directory under isDirectory) free
        · by_cases slash : Path.endsWithSlash path = true
          · rw [if_neg here, if_neg up, if_pos slash] at found
            cases found
          · by_cases long : nameLimit < name.utf8ByteSize
            · rw [if_neg here, if_neg up, if_neg slash, if_pos long] at found
              cases found
            · rw [if_neg here, if_neg up, if_neg slash, if_neg long] at found
              cases found
              exact ⟨checked, named, by simpa using slash, before.reverse, name, directory, parted,
                here, up, Nat.not_lt.mp long, followed, isDirectory, rfl⟩
    · cases found

theorem write_puts (tree after : FileTree) (path text : String)
    (written : tree.write path text = .ok after) :
    ∃ place, Target tree path place ∧ tree.node? place ≠ some .directory ∧
      tree.put place (.file text) = after := by
  unfold write at written
  cases found : tree.destination path with
  | error error => simp [found] at written
  | ok place =>
      have free : tree.node? place ≠ some .directory := fun directory => by
        simp [found, directory] at written
      refine ⟨place, destination_target tree path place found free, free, ?_⟩
      simpa only [found, Except.ok.injEq] using written

theorem written_found (tree after : FileTree) (path text : String)
    (written : tree.write path text = .ok after) :
    ∃ place, after.resolve path = .ok place ∧ after.node? place = some (.file text) := by
  obtain ⟨place, target, free, put⟩ := write_puts tree after path text written
  obtain ⟨before, name, directory, parted, here, up, short, followed, isDirectory, rfl⟩ :=
    target.reached
  have extended : Extends tree after := put ▸ put_extends tree _ _ free
  have there : after.node? (directory ++ [name]) = some (.file text) := by
    rw [← put, node_put_same tree _ _ (outside_working_directory tree _ free)]
  have origin : after.origin path = tree.origin path := by
    simp only [FileTree.origin, extended.workingDirectory]
  have steps : FileTree.steps path = before ++ [name] := by
    rw [FileTree.steps, if_neg (by simp [target.unslashed]), List.append_nil]
    exact parted
  have entered : after.follow directory name = .ok (directory ++ [name]) :=
    (follow_ok_iff _ _ _ _).mpr ⟨extended.directories directory isDirectory,
      .inr (.inr ⟨here, up, short, by rw [there]; rfl, rfl⟩)⟩
  have reached : after.followAll (after.origin path) (FileTree.steps path) =
      .ok (directory ++ [name]) := by
    rw [origin, steps, follow_all_append after before name _ directory
      (follow_all_extended extended before _ _ followed), entered]
  refine ⟨directory ++ [name], ?_, there⟩
  simp only [resolve, target.checked, target.named, reached, bind, Except.bind, Bool.false_eq_true,
    if_false]

theorem written_read (tree after : FileTree) (path text : String)
    (written : tree.write path text = .ok after) : after.read path = .ok text := by
  obtain ⟨place, resolved, there⟩ := written_found tree after path text written
  simp only [read, resolved, there]

theorem written_is_file (tree after : FileTree) (path text : String)
    (written : tree.write path text = .ok after) : after.isFile path = true := by
  obtain ⟨place, resolved, there⟩ := written_found tree after path text written
  simp only [isFile, find?, resolved, there]

end BrowserFlow.FileTree
