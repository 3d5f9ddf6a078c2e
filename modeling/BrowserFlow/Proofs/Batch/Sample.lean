import BrowserFlow.Authoring.Check
import BrowserFlow.Description
import BrowserFlow.Proofs.Batch.Cells
/-! Sample batches. What a description shows of a batch is one with two records exactly when the names are
distinct and not empty, every name and sample can be written as a cell, and no line is blank or a comment.
-/
set_option autoImplicit false

namespace BrowserFlow.Workflow

variable (workflow : Workflow)

def sampleMargin : String := "    "

def sampleText : String :=
  String.join (workflow.sampleBatch.map fun row => textLine (sampleMargin ++ row))

def sampleRecords : List Batch.Record :=
  [workflow.columns.map fun column => (column.name, column.first),
    workflow.columns.map fun column => (column.name, column.second)]

structure SamplesFit : Prop where
  distinct : (workflow.columns.map Column.name).Nodup
  named : ∀ column ∈ workflow.columns, column.name ≠ ""
  cells : ∀ column ∈ workflow.columns,
    Batch.IsCell column.name ∧ Batch.IsCell column.first ∧ Batch.IsCell column.second
  rows : ∀ row ∈ workflow.sampleBatch, row ≠ "" ∧ row.toList.head? ≠ some '#'

def sampleTexts : List (List String) :=
  [workflow.columns.map Column.name, workflow.columns.map Column.first,
    workflow.columns.map Column.second]

theorem sample_batch_texts :
    workflow.sampleBatch = workflow.sampleTexts.map (Text.joinWith ",") := rfl

theorem margin_blank : ∀ c ∈ sampleMargin.toList, Text.isBlank c = true := by
  have blank : sampleMargin.toList.all Text.isBlank = true := by decide
  exact List.all_eq_true.mp blank

theorem sample_rows (each : ∀ texts ∈ workflow.sampleTexts, ∀ text ∈ texts, Batch.IsCell text) :
    ∀ row ∈ workflow.sampleBatch,
      '\n' ∉ row.toList ∧ Text.trimChars row.toList = row.toList := by
  intro row listed
  rw [sample_batch_texts] at listed
  obtain ⟨texts, member, rfl⟩ := List.mem_map.mp listed
  exact ⟨Batch.line_free texts (each texts member), Batch.line_trimmed texts (each texts member)⟩

theorem sample_lines (each : ∀ texts ∈ workflow.sampleTexts, ∀ text ∈ texts, Batch.IsCell text) :
    Text.lines workflow.sampleText = workflow.sampleBatch.map (sampleMargin ++ ·) := by
  have written : workflow.sampleText =
      String.join ((workflow.sampleBatch.map (sampleMargin ++ ·)).map (· ++ "\n")) := by
    rw [List.map_map]
    rfl
  rw [written]
  refine Text.lines_written _ (List.forall_mem_map.mpr fun row listed => ?_)
    (List.forall_mem_map.mpr fun row listed => ?_)
  · rw [String.toList_append, List.mem_append, not_or]
    exact ⟨by decide, (workflow.sample_rows each row listed).1⟩
  · obtain ⟨_, ends⟩ := (Text.trim_same_iff _).mp (workflow.sample_rows each row listed).2
    rw [String.toList_append, List.getLast?_append]
    intro last
    rcases Option.or_eq_some_iff.mp last with inside | ⟨_, margin⟩
    · exact absurd (ends '\r' inside) (by decide)
    · exact absurd margin (by decide)

theorem sample_significant_iff
    (each : ∀ texts ∈ workflow.sampleTexts, ∀ text ∈ texts, Batch.IsCell text) :
    (∀ line ∈ workflow.sampleBatch.map (sampleMargin ++ ·), Batch.isSignificant line = true) ↔
      ∀ row ∈ workflow.sampleBatch, row ≠ "" ∧ row.toList.head? ≠ some '#' := by
  rw [List.forall_mem_map]
  exact forall₂_congr fun row listed =>
    Batch.line_significant_iff sampleMargin row margin_blank (workflow.sample_rows each row listed).2

theorem each_text_iff (property : String → Prop) :
    (∀ texts ∈ workflow.sampleTexts, ∀ text ∈ texts, property text) ↔
      ∀ column ∈ workflow.columns,
        property column.name ∧ property column.first ∧ property column.second := by
  constructor
  · intro each column listed
    exact ⟨each _ (by simp [sampleTexts]) _ (List.mem_map_of_mem listed),
      each _ (by simp [sampleTexts]) _ (List.mem_map_of_mem listed),
      each _ (by simp [sampleTexts]) _ (List.mem_map_of_mem listed)⟩
  · intro each texts member text listed
    simp only [sampleTexts, List.mem_cons, List.not_mem_nil, or_false] at member
    rcases member with rfl | rfl | rfl <;> obtain ⟨column, inside, rfl⟩ := List.mem_map.mp listed
    · exact (each column inside).1
    · exact (each column inside).2.1
    · exact (each column inside).2.2

theorem sample_read (full : workflow.columns ≠ []) (fit : workflow.SamplesFit) :
    Batch.read workflow.sampleText = .ok workflow.sampleRecords := by
  have each := (workflow.each_text_iff Batch.IsCell).mpr fit.cells
  have cut : ∀ text : Column → String, workflow.columns.map text ∈ workflow.sampleTexts →
      Batch.cells (sampleMargin ++ Text.joinWith "," (workflow.columns.map text)) =
        workflow.columns.map text := fun text member =>
    Batch.line_cells sampleMargin _ (by simpa using full) (each _ member) margin_blank
  have significant := List.filter_eq_self.mpr ((workflow.sample_significant_iff each).mpr fit.rows)
  refine (Batch.read_ok_iff _ _).mpr ⟨_, _, by rw [workflow.sample_lines each]; exact significant, ?_, ?_⟩
  · rw [cut Column.name (by simp [sampleTexts]), List.mem_map]
    rintro ⟨column, listed, empty⟩
    exact fit.named column listed empty
  · rw [cut Column.name (by simp [sampleTexts])]
    have first := Batch.record_map workflow.columns Column.name Column.first _ fit.distinct
      (cut Column.first (by simp [sampleTexts]))
    have second := Batch.record_map workflow.columns Column.name Column.second _ fit.distinct
      (cut Column.second (by simp [sampleTexts]))
    rw [sampleRecords, ← first, ← second]
    rfl

theorem sample_fit (read : Batch.read workflow.sampleText = .ok workflow.sampleRecords) :
    workflow.SamplesFit := by
  obtain ⟨header, rows, significant, named, records⟩ := (Batch.read_ok_iff _ _).mp read
  have free : ∀ line ∈ header :: rows, '\n' ∉ line.toList := fun line listed =>
    Text.lines_free workflow.sampleText line (List.mem_of_mem_filter (significant ▸ listed))
  obtain ⟨headerFree, rowsFree⟩ := List.forall_mem_cons.mp free
  have known : ∀ record ∈ workflow.sampleRecords, ∃ line, '\n' ∉ line.toList ∧
      record = Batch.record (Batch.cells header) line := by
    intro record listed
    rw [records] at listed
    obtain ⟨line, member, rfl⟩ := List.mem_map.mp listed
    exact ⟨line, rowsFree line member, rfl⟩
  obtain ⟨one, oneFree, first⟩ := known _ List.mem_cons_self
  obtain ⟨two, twoFree, second⟩ := known _ (List.mem_cons_of_mem _ List.mem_cons_self)
  -- The keys of a record are columns, and its values are cells.
  obtain ⟨distinct, keys⟩ := Batch.record_keys (Batch.cells header) one
  have firsts := Batch.record_cells (Batch.cells header) one oneFree
  have seconds := Batch.record_cells (Batch.cells header) two twoFree
  rw [← first, Entries.keys, List.map_map] at distinct keys
  rw [← first] at firsts
  rw [← second] at seconds
  have cells : ∀ column ∈ workflow.columns,
      Batch.IsCell column.name ∧ Batch.IsCell column.first ∧ Batch.IsCell column.second :=
    fun column listed => ⟨Batch.cells_cell header headerFree _ (keys _ (List.mem_map_of_mem listed)),
      firsts _ (List.mem_map_of_mem listed), seconds _ (List.mem_map_of_mem listed)⟩
  have each := (workflow.each_text_iff Batch.IsCell).mpr cells
  refine ⟨distinct, fun column listed empty => named (empty ▸ keys _ (List.mem_map_of_mem listed)), cells, ?_⟩
  -- There are three lines, and three of them are significant.
  rw [workflow.sample_lines each] at significant
  refine (workflow.sample_significant_iff each).mp (List.filter_eq_self.mp ?_)
  refine List.filter_sublist.eq_of_length ?_
  have lengths := congrArg List.length records
  rw [List.length_map] at lengths
  rw [significant, List.length_cons, ← lengths]
  rfl

theorem sample_paragraph (full : workflow.columns ≠ []) :
    paragraph "  data.csv:"
        (if workflow.columns.isEmpty then [] else workflow.sampleBatch.map fun row => "    " ++ row) =
      "\n  data.csv:\n" ++ workflow.sampleText := by
  have heading : "\n" ++ textLine "  data.csv:" = "\n  data.csv:\n" := by decide
  rw [if_neg (by simpa using full), paragraph, if_neg (by simp [sampleBatch]), String.join_cons, heading,
    List.map_map]
  rfl

theorem describe_sample (full : workflow.columns ≠ []) (compiledAt : Option String) :
    ∃ before note, workflow.describe compiledAt =
      before ++ "\n  data.csv:\n" ++ workflow.sampleText ++ "\n" ++ note := by
  simp only [describe]
  rw [workflow.sample_paragraph full, ← String.append_assoc]
  exact ⟨_, _, rfl⟩

-- The sample batch of a workflow that declares a column is read as the columns' two samples exactly when
-- the names and samples fit the format, which has no quotes.
theorem sample_read_iff (declared : workflow.inputs ≠ [] ∨ workflow.extractions ≠ [])
    (compiledAt : Option String) :
    (∃ before note, workflow.describe compiledAt =
        before ++ "\n  data.csv:\n" ++ workflow.sampleText ++ "\n" ++ note) ∧
      (Batch.read workflow.sampleText = .ok workflow.sampleRecords ↔ workflow.SamplesFit) := by
  have full : workflow.columns ≠ [] := by
    rcases declared with inputs | extractions
    · simp [columns, inputs]
    · simp [columns, extractions]
  exact ⟨workflow.describe_sample full compiledAt, workflow.sample_fit, workflow.sample_read full⟩

end BrowserFlow.Workflow

namespace BrowserFlow

open Json

def tagging (tags : String) : Json :=
  object [("name", string "tagging"),
    ("input", object [("tags", object [("default", string tags)])]),
    ("extract", array [object [("field", string "date"), ("prompt", string "When is it due?")]]),
    ("steps", array [
      object [("name", string "Tag"), ("action", string "fill"), ("selector", string "#tags"),
        ("value", string "$\x7binput.tags\x7d")]])]

def taggingWorkflow (tags : String) : Workflow where
  name := "tagging"
  description := none
  inputs := [("tags", ⟨none, false, some (string tags), none, none⟩)]
  constants := []
  extractions := [⟨"date", "When is it due?", none⟩]
  outputs := []
  steps := [⟨"Tag", "fill", some "#tags", none, some (string "$\x7binput.tags\x7d"), none, none, none,
    none, none, none, none, none⟩]

theorem sample_read_tagging :
    (taggingWorkflow "red").inputs ≠ [] ∧ (taggingWorkflow "red").SamplesFit ∧
      Batch.read (taggingWorkflow "red").sampleText = .ok (taggingWorkflow "red").sampleRecords := by
  have declared : (taggingWorkflow "red").inputs ≠ [] := by simp [taggingWorkflow]
  have fit : (taggingWorkflow "red").SamplesFit :=
    ⟨by decide +kernel, by decide +kernel, by decide +kernel, by decide +kernel⟩
  obtain ⟨_, read⟩ := Workflow.sample_read_iff (taggingWorkflow "red") (.inl declared) none
  exact ⟨declared, fit, read.mpr fit⟩

theorem tagging_samples_cut :
    Authoring.check (tagging "red,blue") = [] ∧
      Workflow.decode (.given (tagging "red,blue")) = .ok (taggingWorkflow "red,blue") ∧
      (taggingWorkflow "red,blue").inputs ≠ [] ∧
      Batch.read (taggingWorkflow "red,blue").sampleText =
        .ok [[("tags", "red"), ("date", "blue")], [("tags", "red"), ("date", "blue")]] ∧
      Batch.read (taggingWorkflow "red,blue").sampleText ≠
        .ok (taggingWorkflow "red,blue").sampleRecords := by
  refine ⟨by rfl, by rfl, by simp [taggingWorkflow], by rfl, by decide +kernel⟩

end BrowserFlow
