import BrowserFlow.Proofs.Run.Simulation
import BrowserFlow.Run.Recorder
import BrowserFlow.Proofs.Sources.Precedence
/-! Batches. Each record is run in a context of its own and from the state that the records before it left,
and nothing else passes from one record to the next: a recorder without planned failures gives each record
the outcome that it has alone. -/
set_option autoImplicit false

namespace BrowserFlow.Driver

open Json Sources

variable {State : Type}

section

variable (driver : Driver State) (policy : Policy) (tree : FileTree) (program : Program)
  (sources : Sources)

theorem run_batch_cons (record : Batch.Record) (rest : List Batch.Record) (state : State) :
    driver.runBatch policy tree program sources (record :: rest) state =
      let first := driver.runRecord policy tree program sources record state
      let others := driver.runBatch policy tree program sources rest first.2
      (first.1 :: others.1, others.2) := rfl

theorem run_batch_length (records : List Batch.Record) (state : State) :
    (driver.runBatch policy tree program sources records state).1.length = records.length := by
  induction records generalizing state with
  | nil => rfl
  | cons record rest ih => rw [run_batch_cons, List.length_cons, List.length_cons, ih]

theorem run_batch_append (front back : List Batch.Record) (state : State) :
    driver.runBatch policy tree program sources (front ++ back) state =
      let first := driver.runBatch policy tree program sources front state
      let second := driver.runBatch policy tree program sources back first.2
      (first.1 ++ second.1, second.2) := by
  induction front generalizing state with
  | nil => rfl
  | cons record rest ih => simp only [List.cons_append, run_batch_cons, ih]

theorem run_batch_at (records : List Batch.Record) (state : State) (position : Nat) :
    (driver.runBatch policy tree program sources records state).1[position]? =
      records[position]?.map fun record =>
        (driver.runRecord policy tree program sources record
          (driver.runBatch policy tree program sources (records.take position) state).2).1 := by
  induction records generalizing state position with
  | nil => rfl
  | cons record rest ih =>
      cases position with
      | zero => rfl
      | succ position =>
          rw [run_batch_cons, List.getElem?_cons_succ, ih, List.getElem?_cons_succ, List.take_succ_cons,
            run_batch_cons]

theorem unbuildable_record (record : Batch.Record) (failure : Failure)
    (refused : sources.context tree program (some record) = .error failure) (state : State) :
    driver.runRecord policy tree program sources record state = (.error failure, state) := by
  rw [runRecord, refused]

theorem unbuildable_deleted (before after : List Batch.Record) (record : Batch.Record)
    (failure : Failure) (refused : sources.context tree program (some record) = .error failure)
    (state : State) :
    let whole := driver.runBatch policy tree program sources (before ++ record :: after) state
    whole.1[before.length]? = some (.error failure) ∧
      driver.runBatch policy tree program sources (before ++ after) state =
        (whole.1.eraseIdx before.length, whole.2) := by
  have length := run_batch_length driver policy tree program sources before state
  simp only [run_batch_append, run_batch_cons,
    unbuildable_record driver policy tree program sources record failure refused]
  rw [← length]
  simp [List.eraseIdx_append_of_length_le]

end

section

variable {Other : Type} {driver : Driver State} {other : Driver Other}
  {related : State → Other → Prop} (simulates : Simulates driver other related) (policy : Policy)
  (tree : FileTree) (program : Program) (sources : Sources)

include simulates

theorem run_record_simulated (record : Batch.Record) (state : State) (twin : Other)
    (start : related state twin) :
    Alike related (driver.runRecord policy tree program sources record state)
      (other.runRecord policy tree program sources record twin) := by
  unfold runRecord runUnder
  cases sources.context tree program (some record) with
  | error failure => exact ⟨rfl, start⟩
  | ok context =>
      rcases retries_simulated simulates policy.deadline context program policy.maxRetries state twin start
        with ⟨error, ran, mirrored⟩ | ⟨⟨report, after⟩, ⟨echo, twinAfter⟩, ran, mirrored, same, still⟩
      · simp only [ran, mirrored]
        exact ⟨rfl, start⟩
      · cases same
        simp only [ran, mirrored]
        exact ⟨rfl, still⟩

theorem run_batch_simulated (records : List Batch.Record) (state : State) (twin : Other)
    (start : related state twin) :
    Alike related (driver.runBatch policy tree program sources records state)
      (other.runBatch policy tree program sources records twin) := by
  induction records generalizing state twin with
  | nil => exact ⟨rfl, start⟩
  | cons record rest ih =>
      obtain ⟨same, middle⟩ := run_record_simulated simulates policy tree program sources record state twin
        start
      obtain ⟨others, last⟩ := ih _ _ middle
      rw [run_batch_cons, run_batch_cons]
      exact ⟨by simp only [same, others], last⟩

end

def LoggedBehind (log : List Call) (recording later : Recording) : Prop :=
  later.calls = log ++ recording.calls ∧ later.failures = recording.failures

def Unplanned (recording other : Recording) : Prop :=
  recording.failures = [] ∧ other.failures = []

section

variable (scriptResult : Option Json) (delay : Nat)

theorem recorder_behind (log : List Call) :
    Simulates (recorder scriptResult delay) (recorder scriptResult delay) (LoggedBehind log) := by
  refine ⟨rfl, fun call recording later behind => ?_, fun call recording later behind => ?_⟩
  · simp only [recorder, Recording.record, behind.2]
    cases chargeFirst call recording.failures <;> rfl
  · simp only [recorder, Recording.record, behind.2]
    cases chargeFirst call recording.failures with
    | none => exact ⟨by simp [behind.1], rfl⟩
    | some failures => exact ⟨by simp [behind.1], rfl⟩

theorem recorder_unplanned :
    Simulates (recorder scriptResult delay) (recorder scriptResult delay) Unplanned := by
  refine ⟨rfl, fun call recording other plain => ?_, fun call recording other plain => ?_⟩
  · simp only [recorder, Recording.record, plain.1, plain.2, chargeFirst]
  · simp only [recorder, Recording.record, plain.1, plain.2, chargeFirst]
    exact ⟨rfl, rfl⟩

variable (policy : Policy) (tree : FileTree) (program : Program) (sources : Sources)

def batchCalls (records : List Batch.Record) (recording : Recording) : List Call :=
  ((recorder scriptResult delay).runBatch policy tree program sources records recording).2.calls.drop
    recording.calls.length

-- The log only grows, as the recorder does the same behind any log.
theorem batch_logged (records : List Batch.Record) (recording : Recording) :
    ((recorder scriptResult delay).runBatch policy tree program sources records recording).2.calls =
      recording.calls ++
        batchCalls scriptResult delay policy tree program sources records recording := by
  have behind : LoggedBehind recording.calls recording.clear recording := by
    simp [LoggedBehind, Recording.clear]
  have same := run_batch_simulated (recorder_behind scriptResult delay recording.calls) policy tree
    program sources records recording.clear recording behind
  rw [batchCalls, same.2.1, List.drop_left]

theorem batch_calls_append (front back : List Batch.Record) (recording : Recording) :
    batchCalls scriptResult delay policy tree program sources (front ++ back) recording =
      batchCalls scriptResult delay policy tree program sources front recording ++
        batchCalls scriptResult delay policy tree program sources back
          ((recorder scriptResult delay).runBatch policy tree program sources front recording).2 := by
  have whole := batch_logged scriptResult delay policy tree program sources (front ++ back) recording
  rw [run_batch_append] at whole
  simp only [batch_logged] at whole
  rw [List.append_assoc] at whole
  exact (List.append_cancel_left whole).symm

theorem unplanned_batch (records : List Batch.Record) (recording other : Recording)
    (plain : recording.failures = []) (otherPlain : other.failures = []) :
    ((recorder scriptResult delay).runBatch policy tree program sources records recording).1 =
      records.map fun record =>
        ((recorder scriptResult delay).runRecord policy tree program sources record other).1 := by
  have simulates := recorder_unplanned scriptResult delay
  induction records generalizing recording with
  | nil => rfl
  | cons record rest ih =>
      obtain ⟨same, _⟩ := run_record_simulated simulates policy tree program sources record recording other
        ⟨plain, otherPlain⟩
      obtain ⟨_, left, _⟩ := run_record_simulated simulates policy tree program sources record recording
        recording ⟨plain, plain⟩
      simp only [run_batch_cons, List.map_cons, same, ih _ left]

-- Told by what becomes of each record `alone` and by the `calls` that a batch adds to the log.
structure RecordsIndependent (context : Batch.Record → Except Failure Context)
    (alone : Batch.Record → Recording → Except Failure Report × Recording)
    (batch : List Batch.Record → Recording → List (Except Failure Report) × Recording)
    (calls : List Batch.Record → Recording → List Call) : Prop where
  answered : ∀ records recording, (batch records recording).1.length = records.length ∧
    ∀ position, (batch records recording).1[position]? = records[position]?.map fun record =>
      (alone record (batch (records.take position) recording).2).1
  unbuildable : ∀ before record after failure recording, context record = .error failure →
    alone record recording = (.error failure, recording) ∧
      (batch (before ++ record :: after) recording).1[before.length]? = some (.error failure) ∧
      batch (before ++ after) recording =
        ((batch (before ++ record :: after) recording).1.eraseIdx before.length,
          (batch (before ++ record :: after) recording).2)
  cut : ∀ front back recording,
    batch (front ++ back) recording =
        ((batch front recording).1 ++ (batch back (batch front recording).2).1,
          (batch back (batch front recording).2).2) ∧
      calls (front ++ back) recording =
        calls front recording ++ calls back (batch front recording).2 ∧
      (batch front recording).2.calls = recording.calls ++ calls front recording
  unplanned : ∀ records recording other, recording.failures = [] → other.failures = [] →
    (batch records recording).1 = (records.map fun record => (alone record other).1) ∧
      ∀ permuted, records.Perm permuted →
        (records.zip (batch records recording).1).Perm (permuted.zip (batch permuted recording).1)

theorem batch_records_independent :
    RecordsIndependent (fun record => sources.context tree program (some record))
      ((recorder scriptResult delay).runRecord policy tree program sources)
      ((recorder scriptResult delay).runBatch policy tree program sources)
      (batchCalls scriptResult delay policy tree program sources) := by
  refine ⟨fun records recording => ⟨?_, fun position => ?_⟩,
    fun before record after failure recording refused => ⟨?_, ?_⟩,
    fun front back recording => ⟨?_, ?_, ?_⟩,
    fun records recording other plain otherPlain => ⟨?_, fun permuted perm => ?_⟩⟩
  · exact run_batch_length _ policy tree program sources records recording
  · exact run_batch_at _ policy tree program sources records recording position
  · exact unbuildable_record _ policy tree program sources record failure refused recording
  · exact unbuildable_deleted _ policy tree program sources before after record failure refused recording
  · exact run_batch_append _ policy tree program sources front back recording
  · exact batch_calls_append scriptResult delay policy tree program sources front back recording
  · exact batch_logged scriptResult delay policy tree program sources front recording
  · exact unplanned_batch scriptResult delay policy tree program sources records recording other plain
      otherPlain
  · have paired : ∀ records : List Batch.Record,
        records.zip ((recorder scriptResult delay).runBatch policy tree program sources records
          recording).1 = records.map fun record => (record,
            ((recorder scriptResult delay).runRecord policy tree program sources record other).1) :=
      fun records => by
        rw [unplanned_batch scriptResult delay policy tree program sources records recording other plain
          otherPlain]
        exact List.map_prod_left_eq_zip.symm
    rw [paired, paired]
    exact perm.map _

end

def countlessRecord : Batch.Record := [("attendees", "many")]

theorem countless_refused : ∃ failure,
    receiptSources.context receiptTree receiptProgram (some countlessRecord) = .error failure := by
  have refused :
      (receiptSources.context receiptTree receiptProgram (some countlessRecord)).isOk = false := by
    decide +kernel
  cases found : receiptSources.context receiptTree receiptProgram (some countlessRecord) with
  | ok context =>
      rw [found] at refused
      cases refused
  | error failure => exact ⟨failure, rfl⟩

theorem batch_records_independent_receipts :
    Recording.failures ⟨[], []⟩ = [] ∧
      [countlessRecord, receiptRecord].Perm [receiptRecord, countlessRecord] ∧
      ∃ failure,
        receiptSources.context receiptTree receiptProgram (some countlessRecord) = .error failure ∧
        let alone := (recorder none 5).runRecord ⟨2, none⟩ receiptTree receiptProgram receiptSources
        let batch := (recorder none 5).runBatch ⟨2, none⟩ receiptTree receiptProgram receiptSources
        alone countlessRecord ⟨[], []⟩ = (.error failure, ⟨[], []⟩) ∧
          (batch [countlessRecord, receiptRecord] ⟨[], []⟩).1[0]? = some (.error failure) ∧
          batch [receiptRecord] ⟨[], []⟩ =
            ((batch [countlessRecord, receiptRecord] ⟨[], []⟩).1.eraseIdx 0,
              (batch [countlessRecord, receiptRecord] ⟨[], []⟩).2) ∧
          (batch [countlessRecord, receiptRecord] ⟨[], []⟩).1 =
            [.error failure, (alone receiptRecord ⟨[], []⟩).1] ∧
          ([countlessRecord, receiptRecord].zip (batch [countlessRecord, receiptRecord] ⟨[], []⟩).1).Perm
            ([receiptRecord, countlessRecord].zip
              (batch [receiptRecord, countlessRecord] ⟨[], []⟩).1) := by
  obtain ⟨failure, refused⟩ := countless_refused
  have swapped : [countlessRecord, receiptRecord].Perm [receiptRecord, countlessRecord] := .swap _ _ _
  have independent := batch_records_independent none 5 ⟨2, none⟩ receiptTree receiptProgram receiptSources
  obtain ⟨first, second, third⟩ :=
    independent.unbuildable [] countlessRecord [receiptRecord] failure ⟨[], []⟩ refused
  obtain ⟨each, permuted⟩ :=
    independent.unplanned [countlessRecord, receiptRecord] ⟨[], []⟩ ⟨[], []⟩ rfl rfl
  refine ⟨rfl, swapped, failure, refused, first, second, third, ?_, permuted _ swapped⟩
  rw [each, List.map_cons, first, List.map_cons, List.map_nil]

end BrowserFlow.Driver
