import BrowserFlow.Run.Driver
/-! A driver that writes calls down instead of performing them, and fails those it is told to. -/
set_option autoImplicit false

namespace BrowserFlow

-- Calls that are to fail: those of a method, perhaps only on one element, perhaps only the first
-- few.
structure PlannedFailure where
  method : String
  selector : Option String
  -- How many calls are still to fail; all of them when absent.
  remaining : Option Nat
deriving DecidableEq, Repr, Inhabited

namespace PlannedFailure

def concerns (planned : PlannedFailure) (call : Call) : Bool :=
  planned.method == call.method &&
    match planned.selector with
    | some selector => call.selector? == some selector
    | none => true

def applies (planned : PlannedFailure) (call : Call) : Bool :=
  planned.remaining != some 0 && planned.concerns call

def charge (planned : PlannedFailure) : PlannedFailure :=
  { planned with remaining := planned.remaining.map (· - 1) }

end PlannedFailure

def chargeFirst (call : Call) : List PlannedFailure → Option (List PlannedFailure)
  | [] => none
  | planned :: rest =>
    if planned.applies call then some (planned.charge :: rest)
    else (chargeFirst call rest).map (planned :: ·)

structure Recording where
  calls : List Call
  failures : List PlannedFailure
deriving Repr, Inhabited, BEq

namespace Recording

def failure (call : Call) : DriverError :=
  match call.selector? with
  | some selector => .elementNotFound selector
  | none => .other (call.method ++ " failed")

def clear (recording : Recording) : Recording :=
  { recording with calls := [] }

def record (call : Call) (recording : Recording) : Except DriverError Unit × Recording :=
  match chargeFirst call recording.failures with
  | some failures => (.error (failure call), ⟨recording.calls ++ [call], failures⟩)
  | none => (.ok (), ⟨recording.calls ++ [call], recording.failures⟩)

end Recording

def recorder (scriptResult : Option Json) (delay : Nat) : Driver Recording where
  delay := delay
  perform call recording :=
    match recording.record call with
    | (.ok (), after) => (.ok (if call.isScript then scriptResult else none), after)
    | (.error error, after) => (.error error, after)

end BrowserFlow
