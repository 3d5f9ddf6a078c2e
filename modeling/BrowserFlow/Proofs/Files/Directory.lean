import BrowserFlow.Proofs.Files.FileTree
import BrowserFlow.Proofs.Files.Path
/-! The files of one directory. A file that was written under a name of the directory stays there while
directories are made and while files are written under other names of it. -/
set_option autoImplicit false

namespace BrowserFlow

namespace Path

theorem name_relative (name : String) (proper : IsName name) : isAbsolute name = false := by
  unfold isAbsolute
  cases chars : name.toList with
  | nil => rfl
  | cons first rest =>
      have different : first ≠ separator := fun same => proper.free (by simp [chars, same])
      simpa using different

-- A name is a piece of its own behind those of the directory, of which an empty one at the end is lost.
theorem join_split (base name : String) (proper : IsName name) :
    ∃ before, Text.split separator (join base name) = before ++ [name] ∧
      (Text.split separator base = before ++ [""] ∨
        before ≠ [] ∧ Text.split separator base = before) := by
  have relative := name_relative name proper
  have single : Text.splitAt separator name.toList = [name.toList] :=
    Text.split_at_free separator _ proper.free
  by_cases given : base = ""
  · rw [given, join_empty]
    exact ⟨[], by simp [Text.split, single], .inl (by decide)⟩
  · obtain ⟨front, joined, ends⟩ := join_cut base name given relative
    obtain ⟨first, rest, cut⟩ := Text.split_at_nonempty separator front
    refine ⟨(Text.splitAt separator front).map String.ofList, ?_, ?_⟩
    · rw [Text.split, joined, Text.split_at_append, single]
      simp
    · rcases ends with same | closed
      · exact .inr ⟨by simp [cut], by rw [Text.split, same]⟩
      · refine .inl ?_
        rw [Text.split, closed, Text.split_at_append]
        simp [Text.splitAt]

theorem join_components (base name : String) (proper : IsName name) :
    components (join base name) = components base ++ [name] := by
  have relative := name_relative name proper
  have single : components name = [name] := by
    simp [components, Text.split, Text.split_at_free separator _ proper.free, proper.nonempty,
      proper.notHere]
  by_cases given : base = ""
  · rw [given, join_empty, single]
    rfl
  · rw [(join_goes_on base name given relative).components, onward, single]
    simp [proper.notHere]

theorem join_unslashed (base name : String) (proper : IsName name) :
    endsWithSlash (join base name) = false := by
  have last : ∀ front : List Char, (front ++ name.toList).getLast? = name.toList.getLast? := by
    intro front
    apply List.getLast?_append_of_ne_nil
    simpa using proper.nonempty
  have unlike : name.toList.getLast? ≠ some separator := fun closed =>
    proper.free (List.mem_of_getLast? closed)
  rcases join_ends_in base name with same | ⟨front, written⟩
  · rw [same]
    simpa [endsWithSlash] using unlike
  · have shape : front ++ separator :: name.toList = (front ++ [separator]) ++ name.toList := by simp
    simp only [endsWithSlash, written, shape, last]
    simpa using unlike

structure Inside (directory path name : String) : Prop where
  components : components path = components directory ++ [name]
  absolute : isAbsolute path = isAbsolute directory
  proper : IsName name

theorem join_inside (directory name : String) (proper : IsName name) :
    Inside directory (join directory name) name :=
  ⟨join_components directory name proper, join_absolute directory name (name_relative name proper),
    proper⟩

end Path

namespace FileTree

theorem join_pieces (base name : String) (proper : Path.IsName name) :
    pieces (Path.join base name) = pieces base ++ [name] := by
  obtain ⟨before, joined, parted⟩ := Path.join_split base name proper
  unfold pieces
  rw [joined]
  rcases parted with more | ⟨_, same⟩
  · simp [more, proper.nonempty]
  · simp [same, proper.nonempty]

theorem join_steps (base name : String) (proper : Path.IsName name) :
    steps (Path.join base name) = pieces base ++ [name] := by
  rw [steps, if_neg (by simp [Path.join_unslashed base name proper]), List.append_nil]
  exact join_pieces base name proper

structure Grows (tree after : FileTree) : Prop where
  workingDirectory : after.workingDirectory = tree.workingDirectory
  nodes : ∀ place node, tree.node? place = some node → after.node? place = some node

theorem Grows.refl (tree : FileTree) : Grows tree tree := ⟨rfl, fun _ _ there => there⟩

theorem Grows.trans {tree made after : FileTree} (first : Grows tree made) (second : Grows made after) :
    Grows tree after :=
  ⟨second.workingDirectory.trans first.workingDirectory,
    fun place node there => second.nodes place node (first.nodes place node there)⟩

theorem Grows.extends {tree after : FileTree} (grows : Grows tree after) : Extends tree after where
  workingDirectory := grows.workingDirectory
  directories := fun place => grows.nodes place .directory
  nodes := fun place there => by
    obtain ⟨node, found⟩ := Option.isSome_iff_exists.mp there
    rw [grows.nodes place node found]
    rfl

theorem put_grows (tree : FileTree) (place : Place) (node : Node) (free : tree.node? place = none) :
    Grows tree (tree.put place node) := by
  refine ⟨rfl, fun other found there => ?_⟩
  have different : other ≠ place := fun same => by simp [same, free] at there
  rw [node_put_other tree place other node different, there]

theorem follow_not_found (tree : FileTree) (place : Place) (name : String)
    (there : (tree.node? place).isSome) (missing : tree.follow place name = .error .notFound) :
    tree.node? place = some .directory ∧ tree.node? (place ++ [name]) = none := by
  unfold follow at missing
  cases found : tree.node? place with
  | none => simp [found] at there
  | some node =>
      cases node with
      | file text => simp [found] at missing
      | directory =>
          refine ⟨rfl, ?_⟩
          cases inner : tree.node? (place ++ [name]) with
          | none => rfl
          | some node =>
              simp only [found, inner, Option.isSome_some, if_true] at missing
              split at missing
              · cases missing
              · split at missing
                · cases missing
                · split at missing <;> cases missing

theorem enter_grows (tree after : FileTree) (place inner : Place) (name : String)
    (there : (tree.node? place).isSome) (under : tree.UnderDirectories place)
    (entered : tree.enter place name = .ok (after, inner)) :
    Grows tree after ∧ (after.node? inner).isSome ∧ after.UnderDirectories inner := by
  unfold enter at entered
  cases followed : tree.follow place name with
  | ok next =>
      rw [followed] at entered
      cases entered
      refine ⟨Grows.refl tree, ?_, follow_under_directories tree place inner name under followed⟩
      obtain ⟨directory, ⟨_, rfl⟩ | ⟨_, rfl⟩ | ⟨_, _, _, some, rfl⟩⟩ :=
        (follow_ok_iff _ _ _ _).mp followed
      · exact there
      · rw [parent_directory tree place under directory]
        rfl
      · exact some
  | error error =>
      rw [followed] at entered
      cases error with
      | notFound =>
          cases entered
          obtain ⟨directory, free⟩ := follow_not_found tree place name there followed
          have grows := put_grows tree (place ++ [name]) .directory free
          have outside := outside_working_directory tree (place ++ [name]) (by simp [free])
          refine ⟨grows, by simp [node_put_same tree _ _ outside], fun above inside apart => ?_⟩
          apply grows.nodes
          by_cases same : above = place
          · rw [same, directory]
          · exact under above ((List.prefix_concat_iff.mp inside).resolve_left apart) same
      | _ => cases entered

theorem enter_all_grows (names : List String) (tree after : FileTree) (place inner : Place)
    (there : (tree.node? place).isSome) (under : tree.UnderDirectories place)
    (entered : tree.enterAll place names = .ok (after, inner)) : Grows tree after := by
  induction names generalizing tree place with
  | nil =>
      cases entered
      exact Grows.refl after
  | cons name rest ih =>
      rw [enterAll] at entered
      cases first : tree.enter place name with
      | error error => simp [first] at entered
      | ok next =>
          rw [first] at entered
          obtain ⟨grows, some, above⟩ := enter_grows tree next.1 place next.2 name there under first
          exact grows.trans (ih next.1 next.2 some above entered)

theorem origin_there (tree : FileTree) (path : String) : (tree.node? (tree.origin path)).isSome := by
  have within : (tree.origin path).isPrefixOf tree.workingDirectory = true := by
    unfold origin
    split <;> simp
  rw [node?, if_pos within]
  rfl

theorem make_directories_grows (tree after : FileTree) (path : String)
    (made : tree.makeDirectories path = .ok after) : Grows tree after := by
  obtain ⟨⟨⟩, _, made⟩ := (bind_ok_iff _ _ _).mp made
  obtain ⟨⟨entered, place⟩, inside, made⟩ := (bind_ok_iff _ _ _).mp made
  have grows := enter_all_grows _ tree entered _ place (origin_there tree path)
    (origin_under_directories tree path) inside
  simp only at made
  split at made
  · cases made
  · cases made
    exact grows

def DirectoryAt (tree : FileTree) (path : String) (place : Place) : Prop :=
  tree.followAll (tree.origin path) (pieces path) = .ok place ∧ tree.node? place = some .directory

structure HasFile (tree : FileTree) (directory name text : String) : Prop where
  checked : checkPath (Path.join directory name) = .ok ()
  short : name.utf8ByteSize ≤ nameLimit
  reached : ∃ place, tree.DirectoryAt directory place ∧
    tree.node? (place ++ [name]) = some (.file text)

theorem DirectoryAt.extended {tree after : FileTree} {path : String} {place : Place}
    (there : tree.DirectoryAt path place) (extended : Extends tree after) :
    after.DirectoryAt path place := by
  have origin : after.origin path = tree.origin path := by
    simp only [FileTree.origin, extended.workingDirectory]
  refine ⟨?_, extended.directories place there.2⟩
  rw [origin]
  exact follow_all_extended extended _ _ place there.1

theorem join_origin (tree : FileTree) (directory name : String) (proper : Path.IsName name) :
    tree.origin (Path.join directory name) = tree.origin directory := by
  simp only [origin, Path.join_absolute directory name (Path.name_relative name proper)]

theorem HasFile.resolved {tree : FileTree} {directory name text : String}
    (has : tree.HasFile directory name text) (proper : Path.IsName name) :
    ∃ place, tree.DirectoryAt directory place ∧
      tree.resolve (Path.join directory name) = .ok (place ++ [name]) ∧
      tree.node? (place ++ [name]) = some (.file text) := by
  obtain ⟨place, ⟨followed, isDirectory⟩, there⟩ := has.reached
  refine ⟨place, ⟨followed, isDirectory⟩, ?_, there⟩
  have named : (Path.join directory name).isEmpty = false := by
    cases empty : (Path.join directory name).isEmpty with
    | false => rfl
    | true =>
        have nothing := join_pieces directory name proper
        rw [String.isEmpty_iff.mp empty] at nothing
        exact absurd nothing (by simp [pieces, Text.split, Text.splitAt])
  have entered : tree.follow place name = .ok (place ++ [name]) :=
    (follow_ok_iff _ _ _ _).mpr ⟨isDirectory,
      .inr (.inr ⟨proper.notHere, proper.notUp, has.short, by rw [there]; rfl, rfl⟩)⟩
  have reached : tree.followAll (tree.origin (Path.join directory name))
      (FileTree.steps (Path.join directory name)) = .ok (place ++ [name]) := by
    rw [join_origin tree directory name proper, join_steps directory name proper,
      follow_all_append tree _ name _ place followed, entered]
  simp only [resolve, has.checked, named, reached, bind, Except.bind, Bool.false_eq_true, if_false]

theorem HasFile.read {tree : FileTree} {directory name text : String}
    (has : tree.HasFile directory name text) (proper : Path.IsName name) :
    tree.read (Path.join directory name) = .ok text := by
  obtain ⟨place, _, resolved, there⟩ := has.resolved proper
  simp only [FileTree.read, resolved, there]

theorem HasFile.isFile {tree : FileTree} {directory name text : String}
    (has : tree.HasFile directory name text) (proper : Path.IsName name) :
    tree.isFile (Path.join directory name) = true := by
  obtain ⟨place, _, resolved, there⟩ := has.resolved proper
  simp only [FileTree.isFile, find?, resolved, there]

theorem HasFile.grown {tree after : FileTree} {directory name text : String}
    (has : tree.HasFile directory name text) (grows : Grows tree after) :
    after.HasFile directory name text := by
  obtain ⟨place, directoryAt, there⟩ := has.reached
  exact ⟨has.checked, has.short, place, directoryAt.extended grows.extends, grows.nodes _ _ there⟩

theorem directory_at (tree : FileTree) (path : String) (isDirectory : tree.isDirectory path = true) :
    ∃ place, tree.resolve path = .ok place ∧ tree.DirectoryAt path place := by
  unfold FileTree.isDirectory find? at isDirectory
  cases resolved : tree.resolve path with
  | error error => simp [resolved] at isDirectory
  | ok place =>
      have directory : tree.node? place = some .directory := by
        simp only [resolved] at isDirectory
        split at isDirectory
        · assumption
        · cases isDirectory
      refine ⟨place, rfl, ?_, directory⟩
      obtain ⟨_, _, followed⟩ := (resolve_ok_iff tree path place).mp resolved
      unfold steps at followed
      split at followed
      · obtain ⟨middle, before, last⟩ := follow_all_last tree _ _ _ _ followed
        obtain ⟨_, ⟨_, rfl⟩ | ⟨up, _⟩ | ⟨here, _⟩⟩ := (follow_ok_iff _ _ _ _).mp last
        · exact before
        · exact absurd up (by decide)
        · exact absurd rfl here
      · rwa [List.append_nil] at followed

theorem joined_file_iff (tree : FileTree) (directory name : String) (proper : Path.IsName name)
    (isDirectory : tree.isDirectory directory = true) :
    tree.isFile (Path.join directory name) = true ↔ ∃ text, tree.HasFile directory name text := by
  obtain ⟨place, _, followed, isDirectory⟩ := directory_at tree directory isDirectory
  constructor
  · intro file
    obtain ⟨found, text, resolved, there⟩ := (file_iff tree _).mp file
    obtain ⟨checked, _, reached⟩ := (resolve_ok_iff _ _ _).mp resolved
    rw [join_origin tree directory name proper, join_steps directory name proper,
      follow_all_append tree _ name _ place followed] at reached
    obtain ⟨_, ⟨here, _⟩ | ⟨up, _⟩ | ⟨_, _, short, _, rfl⟩⟩ := (follow_ok_iff _ _ _ _).mp reached
    · exact absurd here proper.notHere
    · exact absurd up proper.notUp
    · exact ⟨text, checked, short, place, ⟨followed, isDirectory⟩, there⟩
  · rintro ⟨text, has⟩
    exact has.isFile proper

theorem write_target (tree after : FileTree) (directory name text : String) (proper : Path.IsName name)
    (written : tree.write (Path.join directory name) text = .ok after) :
    ∃ place, checkPath (Path.join directory name) = .ok () ∧ name.utf8ByteSize ≤ nameLimit ∧
      tree.DirectoryAt directory place ∧ tree.node? (place ++ [name]) ≠ some .directory ∧
      tree.put (place ++ [name]) (.file text) = after := by
  obtain ⟨target, found, free, put⟩ := write_puts tree after _ text written
  obtain ⟨before, last, place, parted, _, _, short, followed, isDirectory, rfl⟩ := found.reached
  rw [join_pieces directory name proper] at parted
  obtain ⟨rfl, single⟩ := List.append_inj' parted rfl
  cases single
  rw [join_origin tree directory name proper] at followed
  exact ⟨place, found.checked, short, ⟨followed, isDirectory⟩, free, put⟩

theorem written_has_file (tree after : FileTree) (directory name text : String)
    (proper : Path.IsName name) (written : tree.write (Path.join directory name) text = .ok after) :
    after.HasFile directory name text := by
  obtain ⟨place, checked, short, directoryAt, free, put⟩ :=
    write_target tree after directory name text proper written
  refine ⟨checked, short, place, directoryAt.extended (put ▸ put_extends tree _ _ free), ?_⟩
  rw [← put, node_put_same tree _ _ (outside_working_directory tree _ free)]

-- The directory is reached as before, and so the file that is written is another one.
theorem HasFile.written {tree after : FileTree} {directory name other text otherText : String}
    (has : tree.HasFile directory name text) (proper : Path.IsName other) (different : name ≠ other)
    (put : tree.write (Path.join directory other) otherText = .ok after) :
    after.HasFile directory name text := by
  obtain ⟨place, _, _, directoryAt, free, put⟩ :=
    write_target tree after directory other otherText proper put
  obtain ⟨own, ownAt, there⟩ := has.reached
  have same : own = place := Except.ok.inj (ownAt.1.symm.trans directoryAt.1)
  subst same
  have apart : own ++ [name] ≠ own ++ [other] := by simpa using different
  refine ⟨has.checked, has.short, own, ownAt.extended (put ▸ put_extends tree _ _ free), ?_⟩
  rw [← put, node_put_other tree _ _ _ apart, there]

end FileTree

end BrowserFlow
