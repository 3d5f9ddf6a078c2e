import BrowserFlow.Settings
import BrowserFlow.Proofs.Files.FileTree
import BrowserFlow.Proofs.Files.Home
import BrowserFlow.Proofs.Json.Levels
import BrowserFlow.Proofs.Json.Sources
/-! Settings that are saved. Whatever was loaded is written as JSON and loaded again as it is: its numbers
have the sizes that a reader asks for, its constants are not nested too deep for a text of settings, and its
directories have the home directory in them already. -/
set_option autoImplicit false

namespace BrowserFlow

open Json

theorem Json.natural_yields (limit : Nat) (expected : String) :
    Yields (decodeNatural limit expected) (· < limit) := by
  intro source number decoded
  simp only [decodeNatural, bind_ok_iff] at decoded
  obtain ⟨found, _, decoded⟩ := decoded
  cases found with
  | integer value =>
      dsimp only at decoded
      split at decoded
      · rename_i inside
        cases decoded
        simp only [Bool.and_eq_true, decide_eq_true_iff] at inside
        omega
      · cases decoded
  | _ => cases decoded

namespace Settings

structure Settled (settings : Settings) : Prop where
  retries : settings.maxRetries < Number.twoTo 32
  delay : settings.retryDelay < Number.twoTo 64
  deadline : ∀ deadline ∈ settings.stepDeadline, deadline < Number.twoTo 64
  constants : Entries.Table (Nested 2) settings.constants

theorem default_settled : default.Settled :=
  ⟨by decide, by decide, by simp [default], Entries.table_nil _⟩

theorem decode_settled : YieldsOn (Source.InText 0) decode Settled := by
  refine record_yields_on (text_encloses 0) _ _ _ _ fun slots inside => ?_
  simp only [fields, Fields.made_and_iff, Fields.made_map_iff]
  intro workflows _ programs _ retries retriesMade delay delayMade headless _ deadline deadlineMade
    constants constantsMade
  exact ⟨defaulted_yields (natural_yields _ _) default_settled.retries retriesMade,
    defaulted_yields (natural_yields _ _) default_settled.delay delayMade,
    optional_yields (fun source value _ => natural_yields _ _ source value) deadlineMade,
    defaulted_yields_on (table_yields_on (text_encloses 1) (any_nested 2)) inside
      (Entries.table_nil _) constantsMade⟩

theorem text_settled (text : String) : (ofText text).Settled := by
  rw [ofText]
  cases decoded : decodeDocument decode text with
  | error error => exact default_settled
  | ok settings =>
      simp only [decodeDocument, bind_ok_iff] at decoded
      obtain ⟨found, decoded, _, _, same⟩ := decoded
      cases same
      exact decode_settled _ (text_in_text text) settings decoded

theorem expand_settled (home : String) (settings : Settings) (settled : settings.Settled) :
    (settings.expand home).Settled := by
  rw [expand]
  exact ⟨settled.retries, settled.delay, settled.deadline, settled.constants⟩

-- What is loaded is what some settings come to at home.
theorem loaded_expanded (home : String) (tree : FileTree) (path : String) (settings : Settings)
    (loaded : load home tree path = .ok settings) :
    ∃ raw : Settings, raw.Settled ∧ settings = raw.expand home := by
  unfold load at loaded
  split at loaded
  · rename_i text _
    exact ⟨_, text_settled text, (Except.ok.inj loaded).symm⟩
  · exact ⟨_, default_settled, (Except.ok.inj loaded).symm⟩
  · cases loaded

theorem expand_twice (home : String) (absolute : Path.isAbsolute home = true)
    (trimmed : Text.trim home = home) (settings : Settings) :
    (settings.expand home).expand home = settings.expand home := by
  simp only [expand, Path.expand_again home _ absolute trimmed]

variable {texts : Bool}

theorem path_read (path : String) : Reads texts decodePath (string path) path := by
  intro source holds
  rw [decodePath, holds.face rfl]
  rfl

theorem deadline_read (deadline : Option Nat) :
    Reads texts (decodeOption decodeWord) ((deadline.map natural).getD null) deadline := by
  intro source holds
  cases deadline with
  | none =>
      rw [decodeOption, holds.is_null]
      rfl
  | some deadline =>
      rw [decodeOption, holds.is_null, decodeWord, natural_read _ _ deadline id source holds]
      rfl

theorem settings_read (settings : Settings) (settled : settings.Settled) :
    Reads texts decode settings.encode settings := by
  have stable : Entries.Table Json.Settled settings.constants :=
    settled.constants.weaken fun value nested => merged_well_formed value nested.proper
  have constants : Reads texts (decodeTable decodeAny) (object settings.constants)
      settings.constants := by
    have read := table_read decodeAny id settings.constants (stable.weaken fun value same =>
      (any_read value same : Reads texts decodeAny (id value) value))
    simpa [Entries.mapValues] using read
  refine record_read _ _ _ _ (by simp [Entries.keys]) _ fun slots hold => ?_
  exact (defaulted_read hold "workflows_dir" rfl (path_read settings.workflowsDirectory)).map Settings.mk
    |>.and (defaulted_read hold "programs_dir" rfl (path_read settings.programsDirectory))
    |>.and (defaulted_read hold "max_retries" rfl
      (natural_read _ _ settings.maxRetries fun _ => settled.retries))
    |>.and (defaulted_read hold "retry_delay_ms" rfl (natural_read _ _ settings.retryDelay id))
    |>.and (defaulted_read hold "headless" rfl (flag_read settings.headless))
    |>.and (defaulted_read hold "step_deadline_ms" rfl (deadline_read settings.stepDeadline))
    |>.and (defaulted_read hold "constants" rfl constants)

theorem natural_well_formed (value : Nat) (small : value < Number.twoTo 64) :
    (natural value).wellFormed = true := by
  simp only [natural, wellFormed, Number.fitsInteger, Bool.and_eq_true, decide_eq_true_iff]
  omega

theorem deadline_well_formed (deadline : Option Nat)
    (small : ∀ given ∈ deadline, given < Number.twoTo 64) :
    ((deadline.map natural).getD null).wellFormed = true := by
  cases deadline with
  | none => rfl
  | some given => exact natural_well_formed given (small given rfl)

theorem encode_well_formed (settings : Settings) (settled : settings.Settled) :
    settings.encode.wellFormed = true := by
  have retries : settings.maxRetries < Number.twoTo 64 :=
    Nat.lt_trans settled.retries (by decide)
  rw [encode, object_well_formed_iff]
  refine ⟨by simp [Entries.keys], ?_⟩
  simp only [List.forall_mem_cons]
  exact ⟨rfl, rfl, natural_well_formed _ retries, natural_well_formed _ settled.delay, rfl,
    deadline_well_formed _ settled.deadline,
    (object_well_formed_iff _).mpr ⟨settled.constants.1, fun entry member =>
      (settled.constants.2 entry member).proper⟩, by simp⟩

theorem encode_shallow (settings : Settings) (settled : settings.Settled) :
    settings.encode.depth < jsonNestingLimit := by
  have inside : entriesDepth settings.constants ≤ jsonNestingLimit - 3 := by
    refine (entries_depth_le_iff _ _).mpr fun entry member => ?_
    have reached := (settled.constants.2 entry member).reached
    rw [Reached] at reached
    omega
  have constants : (object settings.constants).depth ≤ jsonNestingLimit - 3 + 1 :=
    Nat.succ_le_succ inside
  have deadline : ((settings.stepDeadline.map natural).getD null).depth = 0 := by
    cases settings.stepDeadline <;> rfl
  rw [encode, depth]
  refine Nat.lt_of_le_of_lt (Nat.succ_le_succ
    ((entries_depth_le_iff _ (jsonNestingLimit - 3 + 1)).mpr ?_)) (by decide)
  simp only [List.forall_mem_cons]
  exact ⟨Nat.zero_le _, Nat.zero_le _, Nat.zero_le _, Nat.zero_le _, Nat.zero_le _,
    (Nat.le_of_eq deadline).trans (Nat.zero_le _), constants, by simp⟩

theorem printed_settings_read (settings : Settings) (settled : settings.Settled)
    (doubles : ∀ double, float double ∈ settings.encode.numbers → Kept (float double)) (text : String)
    (printed : text = settings.encode.pretty ∨ text = settings.encode.compact) :
    ofText text = settings := by
  have sized := numbers_well_formed settings.encode (encode_well_formed settings settled)
  have shallow := encode_shallow settings settled
  have kept := numbers_kept settings.encode (fun whole there => sized (integer whole) there) doubles
  obtain ⟨writes, ended⟩ := Written.printed_written settings.encode kept shallow text printed
  have decoded := settings_read settings settled (.written (.ofText text))
    ⟨⟨rfl, writes⟩, sized, shallow⟩
  have read : decodeDocument decode text = .ok settings := by
    simp only [decodeDocument, decoded, ended, bind, Except.bind]
    rfl
  rw [ofText, read]
  rfl

-- Loading is where settings come to rest: what was loaded can be saved on many lines or on one, and is
-- loaded from there as it is. That the home directory is put in once and for all is the reason.
theorem saved_settings_load (home : String) (absolute : Path.isAbsolute home = true)
    (trimmed : Text.trim home = home) :
    (∀ path, Path.expandHome home (Path.expandHome home path) = Path.expandHome home path) ∧
      ∀ (tree : FileTree) (path : String) (settings : Settings),
        load home tree path = .ok settings →
          (∀ double, float double ∈ settings.encode.numbers → Kept (float double)) →
            ∀ text, (text = settings.encode.pretty ∨ text = settings.encode.compact) →
              ∀ (before after : FileTree) (target : String), before.write target text = .ok after →
                load home after target = .ok settings := by
  refine ⟨fun path => Path.expand_again home path absolute trimmed, ?_⟩
  intro tree path settings loaded doubles text printed before after target saved
  obtain ⟨raw, rawSettled, rfl⟩ := loaded_expanded home tree path settings loaded
  have read := printed_settings_read _ (expand_settled home raw rawSettled) doubles text printed
  simp only [load, FileTree.written_read before after target text saved, read,
    expand_twice home absolute trimmed]

def clerkTree : FileTree :=
  ⟨["home", "ada"], [(["home", "ada", "settings.json"], .file
    ("\x7b\x22programs_dir\x22: \x22 ~/generated\x22, \x22max_retries\x22: 5, " ++
      "\x22constants\x22: \x7b\x22rate\x22: 0.5, \x22code\x22: \x22CK001\x22\x7d\x7d"))]⟩

def onlyHalves (numbers : List Json) : Bool :=
  numbers.all fun
    | float double => double == ⟨false, Number.twoTo 1073⟩
    | _ => true

theorem saved_settings_load_clerk :
    ∃ settings after, load "/home/ada" clerkTree "settings.json" = .ok settings ∧
      settings.programsDirectory = "/home/ada/generated" ∧
      clerkTree.write "settings.json" settings.encode.pretty = .ok after ∧
      load "/home/ada" after "settings.json" = .ok settings := by
  obtain ⟨settings, loaded, found⟩ := any_ok (load "/home/ada" clerkTree "settings.json")
    (fun settings => (settings.programsDirectory == "/home/ada/generated" &&
        onlyHalves settings.encode.numbers) &&
      (clerkTree.write "settings.json" settings.encode.pretty).toOption.any fun _ => true)
    (by decide +kernel)
  obtain ⟨found, saving⟩ := Bool.and_eq_true_iff.mp found
  obtain ⟨programs, halves⟩ := Bool.and_eq_true_iff.mp found
  obtain ⟨after, saved, _⟩ := any_ok _ _ saving
  have half : Kept (float ⟨false, Number.twoTo 1073⟩) := float_kept _ (by decide +kernel)
  have doubles : ∀ double, float double ∈ settings.encode.numbers → Kept (float double) := by
    intro double there
    have same := List.all_eq_true.mp halves (float double) there
    rw [beq_iff_eq.mp same]
    exact half
  exact ⟨settings, after, loaded, beq_iff_eq.mp programs, saved,
    (saved_settings_load "/home/ada" (by decide) (by decide +kernel)).2 clerkTree "settings.json"
      settings loaded doubles _ (.inl rfl) clerkTree after "settings.json" saved⟩

end Settings

end BrowserFlow
