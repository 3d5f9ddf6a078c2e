import BrowserFlow.Proofs.Files.Directory
/-! Well-formed trees. Every place has one node, and each name on the way to it can stand in a path. A tree
is so from the start, and stays so while files are written and directories are made. -/
set_option autoImplicit false

namespace BrowserFlow.FileTree

instance (name : String) : Decidable (Path.IsName name) :=
  decidable_of_iff (Path.separator ∉ name.toList ∧ name ≠ "" ∧ name ≠ "." ∧ name ≠ "..")
    ⟨fun ⟨free, nonempty, here, up⟩ => ⟨free, nonempty, here, up⟩,
      fun proper => ⟨proper.free, proper.nonempty, proper.notHere, proper.notUp⟩⟩

def IsPlace (place : Place) : Prop :=
  ∀ name ∈ place, Path.IsName name

instance (place : Place) : Decidable (IsPlace place) :=
  inferInstanceAs (Decidable (∀ name ∈ place, Path.IsName name))

structure WellFormed (tree : FileTree) : Prop where
  workingDirectory : IsPlace tree.workingDirectory
  places : ∀ entry ∈ tree.nodes, IsPlace entry.1
  distinct : tree.nodes.Pairwise fun left right => left.1 ≠ right.1

theorem empty_well_formed (place : Place) (proper : IsPlace place) : (empty place).WellFormed :=
  ⟨proper, by simp [empty], List.Pairwise.nil⟩

theorem put_well_formed (tree : FileTree) (place : Place) (node : Node) (sound : tree.WellFormed)
    (proper : IsPlace place) : (tree.put place node).WellFormed := by
  refine ⟨sound.workingDirectory, ?_, List.Pairwise.cons ?_ (sound.distinct.filter _)⟩
  · intro entry inside
    rcases List.mem_cons.mp inside with same | kept
    · rw [same]
      exact proper
    · exact sound.places entry (List.mem_filter.mp kept).1
  · intro entry kept same
    have different := (List.mem_filter.mp kept).2
    simp [← same] at different

def IsStep (name : String) : Prop :=
  Path.separator ∉ name.toList ∧ name ≠ ""

theorem IsStep.name {name : String} (step : IsStep name) (here : name ≠ ".") (up : name ≠ "..") :
    Path.IsName name :=
  ⟨step.1, step.2, here, up⟩

theorem pieces_are_steps (path : String) : ∀ piece ∈ pieces path, IsStep piece := by
  intro piece inside
  obtain ⟨cut, nonempty⟩ := List.mem_filter.mp inside
  exact ⟨Text.split_free _ path piece cut, by simpa using nonempty⟩

theorem steps_are_steps (path : String) : ∀ name ∈ steps path, IsStep name := by
  intro name inside
  rcases List.mem_append.mp inside with piece | ending
  · exact pieces_are_steps path name piece
  · split at ending
    · rw [List.mem_singleton.mp ending]
      exact ⟨by decide, by decide⟩
    · cases ending

theorem append_is_place (place : Place) (name : String) (proper : IsPlace place)
    (named : Path.IsName name) : IsPlace (place ++ [name]) := by
  intro other inside
  rcases List.mem_append.mp inside with above | last
  · exact proper other above
  · rw [List.mem_singleton.mp last]
    exact named

theorem origin_is_place (tree : FileTree) (path : String) (sound : tree.WellFormed) :
    IsPlace (tree.origin path) := by
  unfold origin
  split
  · exact nofun
  · exact sound.workingDirectory

theorem follow_is_place (tree : FileTree) (place inner : Place) (name : String) (proper : IsPlace place)
    (step : IsStep name) (followed : tree.follow place name = .ok inner) : IsPlace inner := by
  obtain ⟨_, ⟨_, rfl⟩ | ⟨_, rfl⟩ | ⟨here, up, _, _, rfl⟩⟩ := (follow_ok_iff _ _ _ _).mp followed
  · exact proper
  · exact fun name above => proper name (List.dropLast_subset place above)
  · exact append_is_place place name proper (step.name here up)

theorem follow_all_is_place (tree : FileTree) (names : List String) (place inner : Place)
    (proper : IsPlace place) (steps : ∀ name ∈ names, IsStep name)
    (followed : tree.followAll place names = .ok inner) : IsPlace inner := by
  induction names generalizing place with
  | nil =>
      cases followed
      exact proper
  | cons name rest ih =>
      rw [followAll] at followed
      cases first : tree.follow place name with
      | error error => simp [first] at followed
      | ok next =>
          rw [first] at followed
          have reached := follow_is_place tree place next name proper (steps name List.mem_cons_self) first
          exact ih next reached (fun other inside => steps other (List.mem_cons_of_mem _ inside)) followed

theorem write_well_formed (tree after : FileTree) (path text : String) (sound : tree.WellFormed)
    (written : tree.write path text = .ok after) : after.WellFormed := by
  obtain ⟨place, target, _, put⟩ := write_puts tree after path text written
  obtain ⟨before, name, directory, parted, here, up, _, followed, _, rfl⟩ := target.reached
  have steps : ∀ piece ∈ before ++ [name], IsStep piece := parted ▸ pieces_are_steps path
  have proper : IsPlace directory :=
    follow_all_is_place tree before _ directory (origin_is_place tree path sound)
      (fun piece inside => steps piece (List.mem_append_left _ inside)) followed
  rw [← put]
  exact put_well_formed tree _ _ sound (append_is_place directory name proper
    ((steps name (by simp)).name here up))

theorem enter_well_formed (tree after : FileTree) (place inner : Place) (name : String)
    (sound : tree.WellFormed) (proper : IsPlace place) (step : IsStep name)
    (there : (tree.node? place).isSome) (entered : tree.enter place name = .ok (after, inner)) :
    after.WellFormed ∧ IsPlace inner := by
  unfold enter at entered
  cases followed : tree.follow place name with
  | ok next =>
      rw [followed] at entered
      cases entered
      exact ⟨sound, follow_is_place tree place _ name proper step followed⟩
  | error error =>
      rw [followed] at entered
      cases error with
      | notFound =>
          cases entered
          obtain ⟨directory, _⟩ := follow_not_found tree place name there followed
          -- A dot or two of them would have been followed.
          have dotless : ∀ target, (name = "." ∧ place = target ∨ name = ".." ∧ place.dropLast = target) →
              False := fun target dots => by
            have found := (follow_ok_iff tree place target name).mpr
              ⟨directory, dots.imp_right Or.inl⟩
            rw [followed] at found
            cases found
          have named := step.name (fun here => dotless place (.inl ⟨here, rfl⟩))
            (fun up => dotless place.dropLast (.inr ⟨up, rfl⟩))
          have inside := append_is_place place name proper named
          exact ⟨put_well_formed tree _ _ sound inside, inside⟩
      | _ => cases entered

theorem enter_all_well_formed (names : List String) (tree after : FileTree) (place inner : Place)
    (sound : tree.WellFormed) (proper : IsPlace place) (steps : ∀ name ∈ names, IsStep name)
    (there : (tree.node? place).isSome) (under : tree.UnderDirectories place)
    (entered : tree.enterAll place names = .ok (after, inner)) : after.WellFormed := by
  induction names generalizing tree place with
  | nil =>
      cases entered
      exact sound
  | cons name rest ih =>
      rw [enterAll] at entered
      cases first : tree.enter place name with
      | error error => simp [first] at entered
      | ok next =>
          rw [first] at entered
          obtain ⟨made, reached⟩ := enter_well_formed tree next.1 place next.2 name sound proper
            (steps name List.mem_cons_self) there first
          obtain ⟨_, some, above⟩ := enter_grows tree next.1 place next.2 name there under first
          exact ih next.1 next.2 made reached
            (fun other inside => steps other (List.mem_cons_of_mem _ inside)) some above entered

theorem make_directories_well_formed (tree after : FileTree) (path : String) (sound : tree.WellFormed)
    (made : tree.makeDirectories path = .ok after) : after.WellFormed := by
  obtain ⟨⟨⟩, _, made⟩ := (bind_ok_iff _ _ _).mp made
  obtain ⟨⟨entered, place⟩, inside, made⟩ := (bind_ok_iff _ _ _).mp made
  have kept := enter_all_well_formed _ tree entered _ place sound (origin_is_place tree path sound)
    (steps_are_steps path) (origin_there tree path) (origin_under_directories tree path) inside
  simp only at made
  split at made
  · cases made
  · cases made
    exact kept

end BrowserFlow.FileTree
