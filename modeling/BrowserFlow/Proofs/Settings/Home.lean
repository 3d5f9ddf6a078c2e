import BrowserFlow.Settings
import BrowserFlow.Proofs.Files.Home
/-! Places that are given from the home directory on: the directories of the settings and the file of the
settings itself. They go on from the home directory by the rest of what was given, unless a second slash
makes that rest a path from the root, which takes the place of the home directory. -/
set_option autoImplicit false

namespace BrowserFlow

namespace Settings

-- Where a place leads that may be given from the home directory on: on from there by the rest, as long as
-- the rest is no path from the root itself. Such a rest is all that is left.
def FromHome (home given reached : String) : Prop :=
  ∀ rest, Text.trim given = "~/" ++ rest →
    (Path.GoesOn home rest reached ↔ Path.isAbsolute rest = false ∨ Path.IsRoot home) ∧
      (Path.isAbsolute rest = true → reached = rest)

theorem expanded_from_home (home given : String) (known : home ≠ "") :
    FromHome home given (Path.expandHome home given) := by
  intro rest tilde
  rw [Path.expand_joins home given rest tilde]
  exact ⟨Path.join_goes_on_iff home rest known, Path.join_replaced home rest⟩

theorem directories_from_home (home : String) (settings : Settings) (known : home ≠ "") :
    FromHome home settings.workflowsDirectory (settings.expand home).workflowsDirectory ∧
      FromHome home settings.programsDirectory (settings.expand home).programsDirectory := by
  simp only [expand]
  exact ⟨expanded_from_home home settings.workflowsDirectory known,
    expanded_from_home home settings.programsDirectory known⟩

theorem default_path_from_home (environment : Environment) (given : String)
    (known : environment.home ≠ "") (set : environment.settingsPath = some given) :
    FromHome environment.home given environment.defaultSettingsPath := by
  intro rest tilde
  have written : Text.isBlankText given = false := by
    rw [← Bool.not_eq_true]
    intro blank
    have nothing : Text.trim given = "" := Text.trim_blank given blank
    simp [nothing] at tilde
  have expanded : environment.defaultSettingsPath = Path.expandHome environment.home given := by
    rw [Environment.defaultSettingsPath, set, Option.filter_some_pos (by simp [written])]
  rw [expanded]
  exact expanded_from_home environment.home given known rest tilde

theorem places_from_home (home : String) (known : home ≠ "") :
    (∀ given, FromHome home given (Path.expandHome home given)) ∧
      (∀ (tree : FileTree) (path text : String), tree.read path = .ok text →
        ∃ settings, load home tree path = .ok settings ∧
          FromHome home (ofText text).workflowsDirectory settings.workflowsDirectory ∧
          FromHome home (ofText text).programsDirectory settings.programsDirectory) ∧
      ∀ (environment : Environment) (given : String), environment.home = home →
        environment.settingsPath = some given →
          FromHome home given environment.defaultSettingsPath := by
  refine ⟨fun given => expanded_from_home home given known, fun tree path text read => ?_,
    fun environment given same set => ?_⟩
  · exact ⟨(ofText text).expand home, by rw [load, read], directories_from_home home _ known⟩
  · subst same
    exact default_path_from_home environment given known set

def sharedText : String :=
  "\x7b\x22workflows_dir\x22: \x22 ~/./shared//workflows\x22, " ++
    "\x22programs_dir\x22: \x22~//shared/programs\x22\x7d"

def sharedTree : FileTree :=
  ⟨["home", "pagewright"], [(["home", "pagewright", "settings.json"], .file sharedText)]⟩

def sharedEnvironment (path : String) : Environment :=
  ⟨"/home/pagewright", some path, none⟩

theorem places_from_home_shared :
    "/home/pagewright" ≠ "" ∧
      Path.GoesOn "/home/pagewright" "shared/../programs"
        (Path.expandHome "/home/pagewright" " ~/shared/../programs ") ∧
      (∃ settings, load "/home/pagewright" sharedTree "settings.json" = .ok settings ∧
        Path.GoesOn "/home/pagewright" "./shared//workflows" settings.workflowsDirectory) ∧
      Path.GoesOn "/home/pagewright" "shared/settings.json"
        (sharedEnvironment "~/shared/settings.json").defaultSettingsPath := by
  obtain ⟨expanded, loaded, found⟩ := places_from_home "/home/pagewright" (by decide)
  obtain ⟨settings, read, workflows, _⟩ := loaded sharedTree "settings.json" sharedText (by rfl)
  refine ⟨by decide, ?_, ⟨settings, read, ?_⟩, ?_⟩
  · exact (expanded _ "shared/../programs" (by decide +kernel)).1.mpr (.inl (by decide))
  · exact (workflows "./shared//workflows" (by decide +kernel)).1.mpr (.inl (by decide))
  · exact (found (sharedEnvironment _) _ rfl rfl "shared/settings.json" (by decide +kernel)).1.mpr
      (.inl (by decide))

-- Two slashes behind the tilde leave nothing of the home directory.
theorem shared_programs_strayed :
    Text.trim "~//shared/programs" = "~/" ++ "/shared/programs" ∧
      Path.expandHome "/home/pagewright" "~//shared/programs" = "/shared/programs" ∧
      ¬ Path.components "/home/pagewright" <+: Path.components "/shared/programs" ∧
      (ofText sharedText).programsDirectory = "~//shared/programs" ∧
      (∃ settings, load "/home/pagewright" sharedTree "settings.json" = .ok settings ∧
        settings.programsDirectory = "/shared/programs") ∧
      (sharedEnvironment "~//shared/settings.json").defaultSettingsPath = "/shared/settings.json" := by
  refine ⟨by decide +kernel, by decide +kernel, by decide +kernel, by decide +kernel, ?_,
    by decide +kernel⟩
  exact ⟨(ofText sharedText).expand "/home/pagewright", by rfl, by decide +kernel⟩

end Settings

end BrowserFlow
