import Mathlib.Data.List.Induction
import BrowserFlow.Run.Recorder
/-! A recorder over a history of calls and clears. Each call is written down once. It fails exactly when a
plan still applies to it, and is charged to the first such plan; so a plan for some failures fails as many
of the calls that reach it as it was made for, and forgetting the log changes nothing of this. -/
set_option autoImplicit false

namespace BrowserFlow

namespace PlannedFailure

def Matches (planned : PlannedFailure) (call : Call) : Prop :=
  planned.method = call.method ∧ ∀ selector ∈ planned.selector, call.selector? = some selector

instance (planned : PlannedFailure) (call : Call) : Decidable (planned.Matches call) :=
  inferInstanceAs (Decidable (_ ∧ _))

theorem concerns_iff (planned : PlannedFailure) (call : Call) :
    planned.concerns call = true ↔ planned.Matches call := by
  rcases planned with ⟨method, selector, remaining⟩
  cases selector <;> simp [concerns, Matches]

theorem applies_iff (planned : PlannedFailure) (call : Call) :
    planned.applies call = true ↔ planned.Matches call ∧ planned.remaining ≠ some 0 := by
  simp [applies, concerns_iff, and_comm]

-- A plan is charged one of the failures that it has left; one without a limit stays as it is.
theorem charge_left (planned : PlannedFailure) (call : Call) (applies : planned.applies call = true) :
    (∀ limit, planned.remaining = some limit →
      ∃ left, limit = left + 1 ∧ planned.charge = { planned with remaining := some left }) ∧
      (planned.remaining = none → planned.charge = planned) := by
  obtain ⟨_, spare⟩ := (planned.applies_iff call).mp applies
  refine ⟨fun limit limited => ?_, fun unlimited => ?_⟩
  · cases limit with
    | zero => exact absurd limited spare
    | succ left => exact ⟨left, rfl, by simp [charge, limited]⟩
  · rcases planned with ⟨method, selector, remaining⟩
    cases unlimited
    rfl

end PlannedFailure

def chargedPlan? (call : Call) (failures : List PlannedFailure) : Option Nat :=
  failures.findIdx? (·.applies call)

theorem charge_first_placed (call : Call) (failures : List PlannedFailure) :
    chargeFirst call failures =
      (chargedPlan? call failures).map fun place => failures.modify place PlannedFailure.charge := by
  induction failures with
  | nil => rfl
  | cons planned rest ih =>
      rw [chargedPlan?, List.findIdx?_cons, chargeFirst]
      cases planned.applies call with
      | true => rfl
      | false =>
          rw [ih, chargedPlan?]
          cases rest.findIdx? (·.applies call) <;> rfl

theorem charged_plan_first (call : Call) (failures : List PlannedFailure) (place : Nat)
    (charged : chargedPlan? call failures = some place) :
    ∃ earlier planned later, failures = earlier ++ planned :: later ∧ earlier.length = place ∧
      (∀ other ∈ earlier, other.applies call = false) ∧ planned.applies call = true := by
  obtain ⟨within, applies, first⟩ := List.findIdx?_eq_some_iff_getElem.mp charged
  refine ⟨failures.take place, failures[place], failures.drop (place + 1), ?_, ?_, ?_, applies⟩
  · rw [← List.drop_eq_getElem_cons within, List.take_append_drop]
  · simp [Nat.le_of_lt within]
  · intro other member
    obtain ⟨position, inside, rfl⟩ := List.mem_take_iff_getElem.mp member
    simpa using first position (by omega)

theorem uncharged_iff (call : Call) (failures : List PlannedFailure) :
    chargedPlan? call failures = none ↔ ∀ planned ∈ failures, planned.applies call = false :=
  List.findIdx?_eq_none_iff

inductive Event where
  | call (call : Call)
  | clear

namespace Event

def call? : Event → Option Call
  | .call made => some made
  | .clear => none

def calls (events : List Event) : List Call :=
  events.filterMap call?

end Event

structure Reply where
  call : Call
  outcome : Outcome
  plan : Option Nat

namespace Recording

variable (scriptResult : Option Json) (delay : Nat)

def handle (recording : Recording) : Event → Recording
  | .call call => ((recorder scriptResult delay).perform call recording).2
  | .clear => recording.clear

def reached (recording : Recording) (events : List Event) : Recording :=
  events.foldl (handle scriptResult delay) recording

def replies (recording : Recording) : List Event → List Reply
  | [] => []
  | .call call :: rest =>
    ⟨call, ((recorder scriptResult delay).perform call recording).1,
      chargedPlan? call recording.failures⟩ ::
      replies (recording.handle scriptResult delay (.call call)) rest
  | .clear :: rest => replies (recording.handle scriptResult delay .clear) rest

def chargedFor (call : Call) (failures : List PlannedFailure) : List PlannedFailure :=
  match chargedPlan? call failures with
  | some place => failures.modify place PlannedFailure.charge
  | none => failures

theorem handle_call (recording : Recording) (call : Call) :
    recording.handle scriptResult delay (.call call) =
      ⟨recording.calls ++ [call], chargedFor call recording.failures⟩ := by
  simp only [handle, recorder, record, charge_first_placed, chargedFor]
  cases chargedPlan? call recording.failures <;> rfl

theorem call_outcome (recording : Recording) (call : Call) :
    ((recorder scriptResult delay).perform call recording).1 =
      if (chargedPlan? call recording.failures).isSome then .error (failure call)
      else .ok (if call.isScript then scriptResult else none) := by
  simp only [recorder, record, charge_first_placed]
  cases chargedPlan? call recording.failures <;> rfl

theorem replies_append (recording : Recording) (before later : List Event) :
    recording.replies scriptResult delay (before ++ later) =
      recording.replies scriptResult delay before ++
        (recording.reached scriptResult delay before).replies scriptResult delay later := by
  induction before generalizing recording with
  | nil => rfl
  | cons event rest ih =>
      have behind := ih (recording.handle scriptResult delay event)
      cases event with
      | clear => exact behind
      | call call => exact congrArg (List.cons _) behind

theorem reached_log (recording : Recording) (events : List Event) :
    ∃ earlier calls,
      (events = calls.map .call ∧
          (recording.reached scriptResult delay events).calls = recording.calls ++ calls) ∨
        (events = earlier ++ .clear :: calls.map .call ∧
          (recording.reached scriptResult delay events).calls = calls) := by
  induction events using List.reverseRecOn with
  | nil => exact ⟨[], [], .inl ⟨rfl, (List.append_nil _).symm⟩⟩
  | append_singleton events event ih =>
      have next : recording.reached scriptResult delay (events ++ [event]) =
          (recording.reached scriptResult delay events).handle scriptResult delay event := by
        simp [reached]
      rw [next]
      cases event with
      | clear => exact ⟨events, [], .inr ⟨rfl, rfl⟩⟩
      | call call =>
          rw [handle_call]
          obtain ⟨earlier, calls, ⟨written, log⟩ | ⟨written, log⟩⟩ := ih
          · exact ⟨[], calls ++ [call], .inl ⟨by simp [written], by simp [log]⟩⟩
          · exact ⟨earlier, calls ++ [call], .inr ⟨by simp [written], by simp [log]⟩⟩

theorem replies_of_calls (recording other : Recording) (same : recording.failures = other.failures)
    (events : List Event) :
    recording.replies scriptResult delay events =
      other.replies scriptResult delay ((Event.calls events).map .call) := by
  induction events generalizing recording other with
  | nil => rfl
  | cons event rest ih =>
      cases event with
      | clear => exact ih recording.clear other same
      | call call =>
          have left : (recording.handle scriptResult delay (.call call)).failures =
              (other.handle scriptResult delay (.call call)).failures := by
            rw [handle_call, handle_call, same]
          simp only [replies, Event.calls, List.filterMap_cons, Event.call?, List.map_cons, call_outcome,
            same]
          rw [ih _ _ left]
          rfl

theorem charged_for_first (call : Call) (earlier later : List PlannedFailure) (planned : PlannedFailure)
    (charged : chargedPlan? call (earlier ++ planned :: later) = some earlier.length) :
    chargedFor call (earlier ++ planned :: later) = earlier ++ planned.charge :: later := by
  simp [chargedFor, charged, List.modify_eq_take_drop]

theorem charged_for_place (call : Call) (failures : List PlannedFailure) (place : Nat)
    (planned : PlannedFailure) (there : failures[place]? = some planned) :
    (chargedFor call failures)[place]? =
      some (if chargedPlan? call failures = some place then planned.charge else planned) := by
  unfold chargedFor
  cases chargedPlan? call failures with
  | none => simpa using there
  | some charged =>
      rw [List.getElem?_modify, there]
      by_cases here : charged = place
      · simp [here]
      · simp [here]

end Recording

namespace Reply

def Reaches (planned : PlannedFailure) (place : Nat) (reply : Reply) : Prop :=
  planned.Matches reply.call ∧ ∀ first ∈ reply.plan, place ≤ first

instance (planned : PlannedFailure) (place : Nat) (reply : Reply) :
    Decidable (reply.Reaches planned place) :=
  inferInstanceAs (Decidable (_ ∧ _))

def charged (place : Nat) (replies : List Reply) : Nat :=
  replies.countP fun reply => reply.plan = some place

def reaching (planned : PlannedFailure) (place : Nat) (replies : List Reply) : Nat :=
  replies.countP fun reply => reply.Reaches planned place

theorem charged_iff (reply : Reply) (failures : List PlannedFailure)
    (first : reply.plan = chargedPlan? reply.call failures) (place : Nat) (planned : PlannedFailure)
    (there : failures[place]? = some planned) :
    reply.plan = some place ↔ reply.Reaches planned place ∧ planned.remaining ≠ some 0 := by
  constructor
  · intro charged
    obtain ⟨earlier, found, later, rfl, rfl, _, applies⟩ :=
      charged_plan_first reply.call failures place (first ▸ charged)
    have same : found = planned := by simpa using there
    subst same
    obtain ⟨proper, spare⟩ := (found.applies_iff reply.call).mp applies
    exact ⟨⟨proper, by simp [charged]⟩, spare⟩
  · rintro ⟨⟨proper, before⟩, spare⟩
    have applies := (planned.applies_iff reply.call).mpr ⟨proper, spare⟩
    cases charged : chargedPlan? reply.call failures with
    | none =>
        have idle := (uncharged_iff reply.call failures).mp charged planned
          (List.mem_of_getElem? there)
        rw [applies] at idle
        cases idle
    | some other =>
        rw [first, charged] at before
        obtain ⟨earlier, found, later, rfl, rfl, idle, _⟩ := charged_plan_first _ failures other charged
        have reached : place ≤ earlier.length := before _ rfl
        by_cases here : place = earlier.length
        · rw [first, charged, here]
        · have inside : place < earlier.length := Nat.lt_of_le_of_ne reached here
          rw [List.getElem?_append_left inside] at there
          have unlike := idle planned (List.mem_of_getElem? there)
          rw [applies] at unlike
          cases unlike

end Reply

namespace Recording

variable (scriptResult : Option Json) (delay : Nat)

-- What becomes of the plan at a place while some calls are answered. Every call that reaches it is charged
-- to it, as long as it has failures left; what it is charged and what it has left add up to its limit.
structure Kept (planned : PlannedFailure) (place : Nat) (replies : List Reply)
    (failures : List PlannedFailure) : Prop where
  limited : ∀ limit, planned.remaining = some limit →
    Reply.charged place replies = min limit (Reply.reaching planned place replies) ∧
      ∃ left, Reply.charged place replies + left = limit ∧
        failures[place]? = some { planned with remaining := some left }
  unlimited : planned.remaining = none →
    Reply.charged place replies = Reply.reaching planned place replies ∧
      failures[place]? = some planned

section

variable {planned : PlannedFailure} {place : Nat} {replies : List Reply}
  {failures : List PlannedFailure} (reply : Reply)

theorem Kept.hit (applies : planned.applies reply.call = true) (charged : reply.plan = some place)
    (reaches : reply.Reaches planned place) (kept : Kept planned.charge place replies failures) :
    Kept planned place (reply :: replies) failures := by
  obtain ⟨less, same⟩ := planned.charge_left reply.call applies
  have once : Reply.charged place (reply :: replies) = Reply.charged place replies + 1 := by
    simp [Reply.charged, charged]
  have more : Reply.reaching planned place (reply :: replies) =
      Reply.reaching planned.charge place replies + 1 := by
    simp only [Reply.reaching, List.countP_cons, decide_eq_true reaches, if_true]
    rfl
  refine ⟨fun limit limited => ?_, fun unlimited => ?_⟩
  · obtain ⟨spare, rfl, after⟩ := less limit limited
    obtain ⟨counted, left, sum, there⟩ := kept.limited spare (by rw [after])
    refine ⟨by omega, left, by omega, ?_⟩
    rw [there, after]
  · obtain ⟨counted, there⟩ := kept.unlimited (by rw [same unlimited, unlimited])
    exact ⟨by omega, by rw [there, same unlimited]⟩

theorem Kept.missed (uncharged : reply.plan ≠ some place)
    (idle : reply.Reaches planned place → planned.remaining = some 0)
    (kept : Kept planned place replies failures) : Kept planned place (reply :: replies) failures := by
  have never : Reply.charged place (reply :: replies) = Reply.charged place replies := by
    simp [Reply.charged, uncharged]
  by_cases reaches : reply.Reaches planned place
  · have nothing := idle reaches
    refine ⟨fun limit limited => ?_, fun unlimited => ?_⟩
    · obtain ⟨counted, left, sum, there⟩ := kept.limited limit limited
      cases nothing.symm.trans limited
      exact ⟨by omega, left, by omega, there⟩
    · cases nothing.symm.trans unlimited
  · have same : Reply.reaching planned place (reply :: replies) =
        Reply.reaching planned place replies := by
      simp [Reply.reaching, reaches]
    refine ⟨fun limit limited => ?_, fun unlimited => ?_⟩
    · rw [never, same]
      exact kept.limited limit limited
    · rw [never, same]
      exact kept.unlimited unlimited

end

-- Induction on the history; the plan that the rest of it meets may be charged one failure already.
theorem plan_kept (events : List Event) (recording : Recording) (place : Nat) (planned : PlannedFailure)
    (there : recording.failures[place]? = some planned) :
    Kept planned place (recording.replies scriptResult delay events)
      (recording.reached scriptResult delay events).failures := by
  induction events generalizing recording planned with
  | nil =>
      refine ⟨fun limit limited => ⟨by simp [replies, Reply.charged, Reply.reaching], limit, ?_, ?_⟩,
        fun unlimited => ⟨rfl, there⟩⟩
      · simp [replies, Reply.charged]
      · rw [← limited]
        exact there
  | cons event rest ih =>
      cases event with
      | clear => exact ih recording.clear planned there
      | call call =>
          have next := charged_for_place call recording.failures place planned there
          have law := fun reply first =>
            Reply.charged_iff reply recording.failures first place planned there
          by_cases charged : chargedPlan? call recording.failures = some place
          · obtain ⟨reaches, spare⟩ := (law ⟨call, _, _⟩ rfl).mp charged
            have applies := (planned.applies_iff call).mpr ⟨reaches.1, spare⟩
            rw [if_pos charged] at next
            refine Kept.hit _ applies charged reaches (ih _ planned.charge ?_)
            rw [handle_call]
            exact next
          · rw [if_neg charged] at next
            refine Kept.missed _ charged (fun reaches => ?_) (ih _ planned ?_)
            · exact Classical.not_not.mp fun spare => charged ((law _ rfl).mpr ⟨reaches, spare⟩)
            · rw [handle_call]
              exact next

structure AnswersByPlan (recording : Recording) (call : Call) (performed : Outcome × Recording) :
    Prop where
  logged : performed.2.calls = recording.calls ++ [call]
  fails : (∃ error, performed.1 = .error error) ↔
    ∃ planned ∈ recording.failures, planned.Matches call ∧ planned.remaining ≠ some 0
  charges : ∀ error, performed.1 = .error error → ∃ earlier planned later,
    recording.failures = earlier ++ planned :: later ∧
      chargedPlan? call recording.failures = some earlier.length ∧
      (∀ other ∈ earlier, other.Matches call → other.remaining = some 0) ∧
      planned.Matches call ∧ planned.remaining ≠ some 0 ∧
      performed.2.failures =
        earlier ++ { planned with remaining := planned.remaining.map (· - 1) } :: later
  spares : ∀ produced, performed.1 = .ok produced →
    chargedPlan? call recording.failures = none ∧ performed.2.failures = recording.failures

theorem applies_somewhere_iff (call : Call) (failures : List PlannedFailure) :
    (chargedPlan? call failures).isSome = true ↔
      ∃ planned ∈ failures, planned.Matches call ∧ planned.remaining ≠ some 0 := by
  simp only [chargedPlan?, List.findIdx?_isSome, List.any_eq_true, PlannedFailure.applies_iff]

theorem answers_by_plan (recording : Recording) (call : Call) :
    AnswersByPlan recording call ((recorder scriptResult delay).perform call recording) := by
  have left := handle_call scriptResult delay recording call
  have outcome := call_outcome scriptResult delay recording call
  rw [handle] at left
  refine ⟨by rw [left], ?_, fun error failed => ?_, fun produced passed => ?_⟩
  · rw [outcome, ← applies_somewhere_iff]
    cases chargedPlan? call recording.failures <;> simp
  · rw [outcome] at failed
    cases charged : chargedPlan? call recording.failures with
    | none => simp [charged] at failed
    | some place =>
        obtain ⟨earlier, planned, later, split, rfl, idle, applies⟩ :=
          charged_plan_first call recording.failures place charged
        obtain ⟨proper, spare⟩ := (planned.applies_iff call).mp applies
        refine ⟨earlier, planned, later, split, rfl, fun other member concerned => ?_, proper, spare, ?_⟩
        · have unlike := idle other member
          rw [← Bool.not_eq_true, other.applies_iff] at unlike
          exact Classical.not_not.mp fun some => unlike ⟨concerned, some⟩
        · have here : chargedPlan? call (earlier ++ planned :: later) = some earlier.length := by
            rw [← split, charged]
          rw [left, split]
          exact charged_for_first call earlier later planned here
  · rw [outcome] at passed
    cases charged : chargedPlan? call recording.failures with
    | none => exact ⟨rfl, by rw [left, chargedFor, charged]⟩
    | some place => simp [charged] at passed

structure FollowsPlans (start : Recording) (events : List Event) : Prop where
  logged : ∃ earlier calls,
    (events = calls.map .call ∧
        (start.reached scriptResult delay events).calls = start.calls ++ calls) ∨
      (events = earlier ++ .clear :: calls.map .call ∧
        (start.reached scriptResult delay events).calls = calls)
  answered : ∀ before call later, events = before ++ .call call :: later →
    let recording := start.reached scriptResult delay before
    let performed := (recorder scriptResult delay).perform call recording
    AnswersByPlan recording call performed ∧
      start.replies scriptResult delay events = start.replies scriptResult delay before ++
        ⟨call, performed.1, chargedPlan? call recording.failures⟩ ::
          performed.2.replies scriptResult delay later
  kept : ∀ place planned, start.failures[place]? = some planned →
    Kept planned place (start.replies scriptResult delay events)
      (start.reached scriptResult delay events).failures
  uncleared : ∀ others, Event.calls others = Event.calls events →
    start.replies scriptResult delay others = start.replies scriptResult delay events

theorem plans_followed (start : Recording) (events : List Event) :
    FollowsPlans scriptResult delay start events := by
  refine ⟨reached_log scriptResult delay start events, fun before call later split => ⟨?_, ?_⟩,
    fun place planned there => ?_, fun others same => ?_⟩
  · exact answers_by_plan scriptResult delay _ call
  · rw [split, replies_append]
    rfl
  · exact plan_kept scriptResult delay events start place planned there
  · rw [replies_of_calls scriptResult delay start start rfl others, same,
      ← replies_of_calls scriptResult delay start start rfl events]

-- One click on the payment is to fail, and one click wherever. The payment is clicked twice, with the log
-- cleared in between, and so the click on something else is not charged any more.
theorem plans_followed_payment :
    let start : Recording := ⟨[], [⟨"click", some "#pay", some 1⟩, ⟨"click", none, some 1⟩]⟩
    let events := [Event.call (.click "#pay"), .clear, .call (.click "#pay"), .call (.click "#send")]
    FollowsPlans none 0 start events ∧
      (start.replies none 0 events).map Reply.plan = [some 0, some 1, none] ∧
      Reply.reaching ⟨"click", none, some 1⟩ 1 (start.replies none 0 events) = 2 ∧
      (start.reached none 0 events).calls = [.click "#pay", .click "#send"] ∧
      (start.reached none 0 events).failures =
        [⟨"click", some "#pay", some 0⟩, ⟨"click", none, some 0⟩] ∧
      start.replies none 0 [.call (.click "#pay"), .call (.click "#pay"), .call (.click "#send"), .clear] =
        start.replies none 0 events := by
  intro start events
  have follows := plans_followed none 0 start events
  exact ⟨follows, rfl, by decide, rfl, rfl, follows.uncleared _ rfl⟩

end Recording

end BrowserFlow
