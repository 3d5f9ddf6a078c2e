import Mathlib.Data.String.Basic
import Mathlib.Data.Prod.Lex
import BrowserFlow.Files.Documents
import BrowserFlow.Proofs.Files.WellFormed
/-! Discovery of workflows. Each document right in a directory is listed once, in the order of stems and
then of paths. The stem of a listed document opens one where some document of that stem has its extension in
lower case; documents are listed whatever the case of their extensions. -/
set_option autoImplicit false

namespace BrowserFlow

namespace Path

theorem split_extension_iff (name stem extension : String) :
    splitExtension name = (stem, some extension) ↔
      name = stem ++ "." ++ extension ∧ stem ≠ "" ∧ '.' ∉ extension.toList := by
  have cut : ∀ front back : List Char, '.' ∉ back → name.toList = front ++ '.' :: back →
      splitExtension name =
        if front.isEmpty then (name, none) else (String.ofList front, some (String.ofList back)) := by
    intro front back free written
    have reversed : name.toList.reverse = back.reverse ++ '.' :: front.reverse := by simp [written]
    have inside : ∀ c ∈ back.reverse, decide (c ≠ '.') = true := fun c member => by
      have different : c ≠ '.' := fun same => free (same ▸ List.mem_reverse.mp member)
      simpa using different
    unfold splitExtension
    simp only [reversed, Text.drop_while_stop _ _ _ '.' inside (by decide),
      Text.take_while_stop _ _ _ '.' inside (by decide)]
    cases front with
    | nil => simp
    | cons first rest => simp
  constructor
  · intro parted
    by_cases dotted : '.' ∈ name.toList.reverse
    · obtain ⟨back, front, reversed, free⟩ := List.eq_append_cons_of_mem dotted
      have written : name.toList = front.reverse ++ '.' :: back.reverse := by
        rw [← List.reverse_reverse name.toList, reversed]
        simp
      rw [cut front.reverse back.reverse (by simpa using free) written] at parted
      split at parted
      · cases parted
      · rename_i nonempty
        cases parted
        refine ⟨String.toList_inj.mp (by simp [written]), ?_, by simpa using free⟩
        intro empty
        have nothing := congrArg String.toList empty
        rw [String.toList_ofList] at nothing
        simp [nothing] at nonempty
    · simp [splitExtension, dotted] at parted
  · rintro ⟨rfl, nonempty, free⟩
    have written : (stem ++ "." ++ extension).toList = stem.toList ++ '.' :: extension.toList := by simp
    rw [cut stem.toList extension.toList free written, if_neg (by simpa using nonempty)]
    simp

theorem join_file_name (directory name : String) (proper : IsName name) :
    fileName? (join directory name) = some name :=
  (join_ends_in directory name).file_name proper

theorem document_iff (path : String) :
    isDocument path = true ↔
      ∃ extension, extension? path = some extension ∧ Text.lower extension ∈ documentExtensions := by
  unfold isDocument
  cases extension? path <;> simp

theorem extension_small (extension : String) (known : extension ∈ documentExtensions) :
    Text.lower extension = extension ∧ extension ≠ "" ∧ '.' ∉ extension.toList ∧
      separator ∉ extension.toList := by
  simp only [documentExtensions, List.mem_cons, List.not_mem_nil, or_false] at known
  rcases known with rfl | rfl | rfl <;> decide

theorem extended_proper (name stem other extension : String) (proper : IsName name)
    (parted : splitExtension name = (stem, some other)) (known : extension ∈ documentExtensions) :
    IsName (stem ++ "." ++ extension) := by
  obtain ⟨_, nonempty, dotless, unslashed⟩ := extension_small extension known
  obtain ⟨written, stemmed, _⟩ := (split_extension_iff name stem other).mp parted
  have whole := (split_extension_iff _ stem extension).mpr ⟨rfl, stemmed, dotless⟩
  refine ⟨?_, ?_, ?_, ?_⟩
  · have free := proper.free
    simp only [written, String.toList_append, List.mem_append, not_or] at free ⊢
    exact ⟨free.1, unslashed⟩
  · intro empty
    rw [empty] at whole
    cases whole
  · intro here
    rw [here] at whole
    cases whole
  · intro up
    rw [up] at whole
    injection whole with _ empty
    injection empty with empty
    exact nonempty empty.symm

end Path

namespace FileTree

theorem node_listed (tree : FileTree) (place : Place) (text : String)
    (there : tree.node? place = some (.file text)) : (place, Node.file text) ∈ tree.nodes := by
  unfold node? at there
  split at there
  · cases there
  · obtain ⟨before, after, parted, _⟩ := List.lookup_eq_some_iff.mp there
    rw [parted]
    simp

theorem file_names_iff (tree : FileTree) (directory name : String) (place : Place)
    (resolved : tree.resolve directory = .ok place) :
    name ∈ tree.fileNames directory ↔ ∃ text, (place ++ [name], Node.file text) ∈ tree.nodes := by
  simp only [fileNames, resolved, List.mem_filterMap]
  constructor
  · rintro ⟨⟨found, node⟩, inside, named⟩
    cases node with
    | directory => cases named
    | file text =>
        simp only [Option.ite_none_right_eq_some, beq_iff_eq] at named
        have written : found = place ++ [name] := by
          rw [← named.1, List.dropLast_append_getLast? name named.2]
        exact ⟨text, written ▸ inside⟩
  · rintro ⟨text, inside⟩
    exact ⟨_, inside, by simp⟩

theorem file_names_distinct (tree : FileTree) (directory : String) (sound : tree.WellFormed) :
    (tree.fileNames directory).Nodup := by
  unfold fileNames
  cases tree.resolve directory with
  | error error => exact List.nodup_nil
  | ok place =>
      refine List.pairwise_filterMap.mpr (sound.distinct.imp ?_)
      rintro ⟨left, leftNode⟩ ⟨right, rightNode⟩ different name named other othered rfl
      cases leftNode with
      | directory => cases named
      | file leftText =>
          cases rightNode with
          | directory => cases othered
          | file rightText =>
              simp only [Option.ite_none_right_eq_some, beq_iff_eq] at named othered
              apply different
              rw [← List.dropLast_append_getLast? name named.2,
                ← List.dropLast_append_getLast? name othered.2, named.1, othered.1]

structure Listed.Shows (entry : Listed) (tree : FileTree) (directory name : String) : Prop where
  proper : Path.IsName name
  path : entry.path = Path.join directory name
  file : tree.isFile entry.path = true
  document : Path.isDocument entry.path = true
  stem : Path.stem? entry.path = some entry.name

def Listed.Earlier (left right : Listed) : Prop :=
  left.name < right.name ∨ left.name = right.name ∧ left.path < right.path

theorem listed_iff (tree : FileTree) (directory name : String) (entry : Listed)
    (proper : Path.IsName name) :
    tree.listed? directory name = some entry ↔ entry.Shows tree directory name := by
  unfold listed?
  simp only [Option.ite_none_right_eq_some, Bool.and_eq_true, Option.map_eq_some_iff]
  constructor
  · rintro ⟨⟨file, document⟩, stem, found, rfl⟩
    exact ⟨proper, rfl, file, document, found⟩
  · obtain ⟨stem, path⟩ := entry
    rintro ⟨_, rfl, file, document, found⟩
    exact ⟨⟨file, document⟩, stem, found, rfl⟩

theorem Listed.before_iff (left right : Listed) :
    left.before right = true ↔ toLex (left.name, left.path) ≤ toLex (right.name, right.path) := by
  simp only [Listed.before, Bool.or_eq_true, Bool.and_eq_true, beq_iff_eq, Bool.not_eq_true',
    decide_eq_true_eq, decide_eq_false_iff_not, not_lt, Prod.Lex.toLex_le_toLex]

theorem discover_iff (tree : FileTree) (directory : String) (sound : tree.WellFormed) (entry : Listed) :
    entry ∈ tree.discover directory ↔
      tree.isDirectory directory = true ∧ ∃ name, entry.Shows tree directory name := by
  unfold discover
  cases isDirectory : tree.isDirectory directory with
  | false => simp
  | true =>
      obtain ⟨place, resolved, directoryAt⟩ := directory_at tree directory isDirectory
      rw [if_pos rfl, (List.mergeSort_perm _ _).mem_iff, List.mem_filterMap]
      simp only [true_and]
      constructor
      · rintro ⟨name, inside, listed⟩
        obtain ⟨text, node⟩ := (file_names_iff tree directory name place resolved).mp inside
        have proper := sound.places _ node name (by simp)
        exact ⟨name, (listed_iff tree directory name entry proper).mp listed⟩
      · rintro ⟨name, shows⟩
        refine ⟨name, ?_, (listed_iff tree directory name entry shows.proper).mpr shows⟩
        obtain ⟨text, has⟩ := (joined_file_iff tree directory name shows.proper isDirectory).mp
          (shows.path ▸ shows.file)
        obtain ⟨other, otherAt, there⟩ := has.reached
        have same : other = place := Except.ok.inj (otherAt.1.symm.trans directoryAt.1)
        exact (file_names_iff tree directory name place resolved).mpr
          ⟨text, node_listed tree _ text (same ▸ there)⟩

theorem discover_distinct (tree : FileTree) (directory : String) (sound : tree.WellFormed) :
    (tree.discover directory).Nodup := by
  unfold discover
  split
  · rename_i isDirectory
    obtain ⟨place, resolved, _⟩ := directory_at tree directory isDirectory
    refine (List.mergeSort_perm _ _).nodup_iff.mpr (List.pairwise_filterMap.mpr ?_)
    refine (file_names_distinct tree directory sound).imp_of_mem ?_
    intro left right leftInside rightInside different entry listed other otherListed same
    have proper : ∀ name ∈ tree.fileNames directory, Path.IsName name := fun name inside => by
      obtain ⟨text, node⟩ := (file_names_iff tree directory name place resolved).mp inside
      exact sound.places _ node name (by simp)
    have shown := (listed_iff tree directory left entry (proper left leftInside)).mp listed
    have other := (listed_iff tree directory right _ (proper right rightInside)).mp otherListed
    have named := Path.join_file_name directory left shown.proper
    rw [← shown.path, same, other.path, Path.join_file_name directory right other.proper] at named
    exact different (Option.some.inj named).symm
  · exact List.nodup_nil

theorem discover_ordered (tree : FileTree) (directory : String) (sound : tree.WellFormed) :
    (tree.discover directory).Pairwise Listed.Earlier := by
  have sorted : (tree.discover directory).Pairwise fun left right => left.before right = true := by
    unfold discover
    split
    · refine List.pairwise_mergeSort (fun first second third => ?_) (fun first second => ?_) _
      · simp only [Listed.before_iff]
        exact le_trans
      · simp only [Bool.or_eq_true, Listed.before_iff]
        exact le_total _ _
    · exact List.Pairwise.nil
  refine (sorted.and (discover_distinct tree directory sound)).imp ?_
  rintro ⟨leftName, leftPath⟩ ⟨rightName, rightPath⟩ ⟨before, different⟩
  rw [Listed.before_iff, Prod.Lex.toLex_le_toLex] at before
  refine before.imp_right fun ⟨same, later⟩ => ⟨same, lt_of_le_of_ne later fun equal => different ?_⟩
  simp only at same equal
  rw [same, equal]

theorem resolves_iff (tree : FileTree) (directory identifier : String) :
    (∃ path, tree.resolveWorkflow directory identifier = .ok path) ↔
      tree.isFile identifier = true ∨ ∃ extension ∈ Path.documentExtensions,
        tree.isFile (Path.join directory (identifier ++ "." ++ extension)) = true := by
  unfold resolveWorkflow
  by_cases direct : tree.isFile identifier = true
  · simp [direct]
  · rw [if_neg direct]
    cases found : (candidates directory identifier).find? tree.isFile with
    | some path =>
        obtain ⟨extension, known, rfl⟩ := List.mem_map.mp (List.mem_of_find?_eq_some found)
        exact iff_of_true ⟨_, rfl⟩ (.inr ⟨extension, known, List.find?_some found⟩)
    | none =>
        refine iff_of_false (by simp) (not_or.mpr ⟨direct, ?_⟩)
        rintro ⟨extension, known, file⟩
        exact List.find?_eq_none.mp found _ (List.mem_map_of_mem known) file

theorem Listed.Shows.written {entry : Listed} {tree : FileTree} {directory name : String}
    (shows : entry.Shows tree directory name) :
    ∃ extension, Path.extension? entry.path = some extension ∧
      Text.lower extension ∈ Path.documentExtensions ∧
      Path.splitExtension name = (entry.name, some extension) := by
  obtain ⟨extension, extended, known⟩ := (Path.document_iff entry.path).mp shows.document
  have named := Path.join_file_name directory name shows.proper
  have stem := shows.stem
  refine ⟨extension, extended, known, ?_⟩
  rw [Path.extension?, shows.path, named, Option.bind_some] at extended
  rw [Path.stem?, shows.path, named, Option.map_some, Option.some.injEq] at stem
  exact Prod.ext stem extended

theorem sibling_iff (tree : FileTree) (directory : String) (sound : tree.WellFormed) (entry : Listed)
    (listed : entry ∈ tree.discover directory) (extension : String)
    (known : extension ∈ Path.documentExtensions) :
    tree.isFile (Path.join directory (entry.name ++ "." ++ extension)) = true ↔
      ∃ other ∈ tree.discover directory, other.name = entry.name ∧
        Path.extension? other.path = some extension := by
  obtain ⟨isDirectory, name, shows⟩ := (discover_iff tree directory sound entry).mp listed
  obtain ⟨own, _, _, parted⟩ := shows.written
  have sibling := Path.extended_proper name entry.name own extension shows.proper parted known
  obtain ⟨small, _, dotless, _⟩ := Path.extension_small extension known
  obtain ⟨_, stemmed, _⟩ := (Path.split_extension_iff name entry.name own).mp parted
  have whole := (Path.split_extension_iff _ entry.name extension).mpr ⟨rfl, stemmed, dotless⟩
  have named := Path.join_file_name directory _ sibling
  constructor
  · intro file
    have extended : Path.extension? (Path.join directory (entry.name ++ "." ++ extension)) =
        some extension := by
      rw [Path.extension?, named, Option.bind_some, whole]
    refine ⟨⟨entry.name, Path.join directory (entry.name ++ "." ++ extension)⟩, ?_, rfl, extended⟩
    refine (discover_iff tree directory sound _).mpr ⟨isDirectory, _, sibling, rfl, file, ?_, ?_⟩
    · exact (Path.document_iff _).mpr ⟨extension, extended, small.symm ▸ known⟩
    · rw [Path.stem?, named, Option.map_some, whole]
  · rintro ⟨other, inside, same, extended⟩
    obtain ⟨_, _, otherShows⟩ := (discover_iff tree directory sound other).mp inside
    obtain ⟨_, otherExtended, _, otherParted⟩ := otherShows.written
    rw [extended, Option.some.injEq] at otherExtended
    subst otherExtended
    obtain ⟨written, _, _⟩ := (Path.split_extension_iff _ _ _).mp otherParted
    rw [← same, ← written, ← otherShows.path]
    exact otherShows.file

-- A listing shows each document right in the directory once, in the order of stems and then of paths;
-- and its entries open where the stem is a file itself or is listed with an extension in lower case.
theorem documents_discovered (tree : FileTree) (directory : String) (sound : tree.WellFormed) :
    (tree.discover directory).Pairwise Listed.Earlier ∧
      (∀ entry, entry ∈ tree.discover directory ↔
        tree.isDirectory directory = true ∧ ∃ name, entry.Shows tree directory name) ∧
      ∀ entry ∈ tree.discover directory,
        (∃ path, tree.resolveWorkflow directory entry.name = .ok path) ↔
          tree.isFile entry.name = true ∨ ∃ extension ∈ Path.documentExtensions,
            ∃ other ∈ tree.discover directory, other.name = entry.name ∧
              Path.extension? other.path = some extension := by
  refine ⟨discover_ordered tree directory sound, discover_iff tree directory sound,
    fun entry listed => ?_⟩
  rw [resolves_iff]
  refine or_congr_right (exists_congr fun extension => and_congr_right fun known => ?_)
  exact sibling_iff tree directory sound entry listed extension known

def reportTree : FileTree :=
  ((empty ["work"]).put ["work", "workflows"] .directory).put ["work", "workflows", "REPORT.YAML"]
    (.file "name: report\n")

theorem report_well_formed : reportTree.WellFormed :=
  put_well_formed _ _ _ (put_well_formed _ _ _ (empty_well_formed _ (by decide)) (by decide)) (by decide)

def spelledTree : FileTree :=
  reportTree.put ["work", "workflows", "REPORT.yml"] (.file "name: report\n")

theorem documents_discovered_report :
    spelledTree.WellFormed ∧ (spelledTree.discover "workflows").Pairwise Listed.Earlier ∧
      ⟨"REPORT", "workflows/REPORT.YAML"⟩ ∈ spelledTree.discover "workflows" ∧
      ⟨"REPORT", "workflows/REPORT.yml"⟩ ∈ spelledTree.discover "workflows" ∧
      ∃ path, spelledTree.resolveWorkflow "workflows" "REPORT" = .ok path := by
  have sound : spelledTree.WellFormed := put_well_formed _ _ _ report_well_formed (by decide)
  obtain ⟨ordered, shown, opened⟩ := documents_discovered spelledTree "workflows" sound
  have isDirectory : spelledTree.isDirectory "workflows" = true := rfl
  have capitals := (shown ⟨"REPORT", "workflows/REPORT.YAML"⟩).mpr ⟨isDirectory, "REPORT.YAML",
    by decide, rfl, rfl, rfl, rfl⟩
  have small := (shown ⟨"REPORT", "workflows/REPORT.yml"⟩).mpr ⟨isDirectory, "REPORT.yml",
    by decide, rfl, rfl, rfl, rfl⟩
  exact ⟨sound, ordered, capitals, small, (opened _ capitals).mpr
    (.inr ⟨"yml", by decide, _, small, rfl, rfl⟩)⟩

theorem report_listed_unopened :
    reportTree.WellFormed ∧
      ⟨"REPORT", "workflows/REPORT.YAML"⟩ ∈ reportTree.discover "workflows" ∧
      reportTree.resolveWorkflow "workflows" "REPORT" = .error (.workflowNotFound "REPORT"
        ["workflows/REPORT.yaml", "workflows/REPORT.yml", "workflows/REPORT.json"]) := by
  refine ⟨report_well_formed, ?_, rfl⟩
  exact (discover_iff reportTree "workflows" report_well_formed _).mpr ⟨rfl, "REPORT.YAML",
    by decide, rfl, rfl, rfl, rfl⟩

end FileTree

end BrowserFlow
