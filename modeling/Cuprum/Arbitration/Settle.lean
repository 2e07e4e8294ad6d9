import Cuprum.Transition.System
import Cuprum.Arbitration.Steps

namespace Cuprum.Arbitration

open Transition
open Handle (Raised)

variable {Error Result Hook : Type}

/-- A public stop, or the exit of an `async with` block with the error that left it. -/
inductive Caller (Error : Type)
  | stop
  | teardown (pending : Option (Raised Error))
  deriving DecidableEq

structure Site (Error Hook : Type) where
  caller : Caller Error
  answer : Hook → ControlEvent → HookAnswer Error
  clock : Int

inductive Ending (Error Result : Type)
  | returned (result : Result)
  | left
  | raised (error : Raised Error)
  deriving DecidableEq

/-- `rereading` is a public stop that asks for the outcome of a run without one. -/
inductive Phase (Error Result Hook : Type)
  | stopping (await : Await)
  | settling (stop : StepReport Error (StopRecord Hook)) (await : Await)
  | rereading
  | finished (ending : Ending Error Result)
  deriving DecidableEq

inductive Happening (Hook : Type)
  | offered (hook : Hook) (event : ControlEvent)
  | settleBegan
  deriving DecidableEq

/-- `interrupted` is a cancellation the caller has yet to take, and the last fields are
the history: the cancellations it took at each step, and what happened between them. -/
structure State (Error Result Hook : Type) where
  phase : Phase Error Result Hook := .stopping .shielded
  stop : StepTask Error (StopRecord Hook) := .running
  settle : StepTask Error Result := .unstarted
  interrupted : Bool := false
  stopTaken : Nat := 0
  settleTaken : Nat := 0
  trace : List (Happening Hook) := []

inductive Event (Error Result Hook : Type)
  | cancel
  | stopEnds (outcome : Outcome Error (StopRecord Hook))
  | settleEnds (outcome : Outcome Error Result)
  | resume
  deriving DecidableEq

variable (site : Site Error Hook)

/-- What a public stop completes between its steps.  A teardown completes nothing. -/
def Site.completes (report : StepReport Error (StopRecord Hook)) : Emission Error Hook :=
  match site.caller, report.value with
  | .stop, some record =>
      completeControl site.answer site.clock record.1 (stopOutcomeFrom (some record))
  | .stop, none | .teardown _, _ => {}

def Emission.happenings (emission : Emission Error Hook) : List (Happening Hook) :=
  emission.offered.map fun offer => .offered offer.1 offer.2

namespace State

variable (state : State Error Result Hook)

/-- The stop has been reported: its event goes out and, unless the emission raises, the
settle is begun. -/
def settleAfterStop (report : StepReport Error (StopRecord Hook)) : State Error Result Hook :=
  let emission := site.completes report
  match emission.raised with
  | none =>
      { state with
        phase := .settling report .shielded
        settle := .running
        trace := state.trace ++ emission.happenings ++ [.settleBegan] }
  | some error =>
      { state with
        phase := .finished (.raised error)
        trace := state.trace ++ emission.happenings }

/-- `_weigh` reads the recorded outcome again, which takes no await. -/
def weigh (stop : StepReport Error (StopRecord Hook)) (settle : StepReport Error Result) :
    Phase Error Result Hook :=
  match site.caller with
  | .teardown pending =>
      match arbitrate stop settle pending with
      | some error => .finished (.raised error)
      | none => .finished .left
  | .stop =>
      match arbitrate stop settle none with
      | some error => .finished (.raised error)
      | none =>
          match state.settle with
          | .done (.succeeded result) => .finished (.returned result)
          | _ => .rereading

def resume : Option (State Error Result Hook) :=
  match state.phase with
  | .stopping await =>
      (Arbitration.resume state.interrupted await state.stop).map fun resumed =>
        let state := { state with
          interrupted := false
          stopTaken := state.stopTaken + state.interrupted.toNat }
        match resumed with
        | .waits => { state with phase := .stopping .settling }
        | .reports report => state.settleAfterStop site report
        | .raises error => { state with phase := .finished (.raised (.error error)) }
  | .settling stop await =>
      (Arbitration.resume state.interrupted await state.settle).map fun resumed =>
        let state := { state with
          interrupted := false
          settleTaken := state.settleTaken + state.interrupted.toNat }
        match resumed with
        | .waits => { state with phase := .settling stop .settling }
        | .reports report => { state with phase := state.weigh site stop report }
        | .raises error => { state with phase := .finished (.raised (.error error)) }
  | .rereading | .finished _ => none

end State

/-- `_settle_after_stop` and `_settle_teardown`, from the moment the stop's task is
created. -/
def stopThenSettle : System (State Error Result Hook) (Event Error Result Hook) where
  initial := {}
  next state event :=
    match event with
    | .cancel =>
        match state.phase with
        | .stopping _ | .settling _ _ => some { state with interrupted := true }
        | .rereading | .finished _ => none
    | .stopEnds outcome =>
        match state.stop with
        | .running => some { state with stop := .done outcome }
        | .unstarted | .done _ => none
    | .settleEnds outcome =>
        match state.settle with
        | .running => some { state with settle := .done outcome }
        | .unstarted | .done _ => none
    | .resume => state.resume site

end Cuprum.Arbitration
