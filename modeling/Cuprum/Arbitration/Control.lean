import Cuprum.Handle.Settlement

namespace Cuprum.Arbitration

open Handle (Raised)

/-! The control event of a stop, and the observers it is offered to. -/

inductive ControlOperation
  | signal
  | terminate
  | kill
  deriving DecidableEq, Repr

inductive ControlOutcome
  | delivered
  | escalated
  | refusedExited
  | refusedUnsupported
  deriving DecidableEq, Repr

structure ControlTarget where
  execId : Option Nat := none
  signalNumber : Option Int := none
  pid : Option Int := none
  deriving DecidableEq, Repr

structure ControlEvent where
  operation : ControlOperation
  outcome : ControlOutcome
  duration : Int
  execId : Option Nat
  signalNumber : Option Int
  pid : Option Int
  deriving DecidableEq, Repr

structure ControlMeasurement (Hook : Type) where
  operation : ControlOperation
  hooks : List Hook
  started : Int
  target : ControlTarget
  deriving DecidableEq, Repr

/-- What a stop did to the child. -/
structure TerminationOutcome where
  delivered : Bool
  escalated : Bool
  waiterCompleted : Bool
  refused : Bool := false
  deriving DecidableEq, Repr

/-- The measurement is absent where no observer had opted in. -/
abbrev StopRecord (Hook : Type) := Option (ControlMeasurement Hook) × TerminationOutcome

variable {Error Hook : Type}

def stopOutcomeFrom : Option (StopRecord Hook) → ControlOutcome
  | none => .refusedExited
  | some (_, outcome) =>
      if outcome.escalated then .escalated
      else if outcome.delivered then .delivered
      else if outcome.refused then .refusedUnsupported
      else .refusedExited

/-- How an observer answers an event.  The names are those of the types of what it
raises or returns.  A coroutine is closed, which runs what is left of it and may raise. -/
inductive HookAnswer (Error : Type)
  | none
  | raised (name : String)
  | returned (name : String)
  | coroutine (closing : Option (Raised Error))
  deriving DecidableEq

/-- Nothing escapes the emission from this answer. -/
def HookAnswer.isContained : HookAnswer Error → Bool
  | .coroutine closing => closing.isNone
  | .none | .raised _ | .returned _ => true

inductive ControlWarning
  | observerFailed (operation : ControlOperation) (outcome : ControlOutcome) (error : String)
  | observerReturnedValue (operation : ControlOperation) (result : String)
  deriving DecidableEq, Repr

structure Emission (Error Hook : Type) where
  offered : List (Hook × ControlEvent) := []
  warnings : List ControlWarning := []
  closed : List Hook := []
  raised : Option (Raised Error) := none
  deriving DecidableEq

/-- Whatever an observer raises is logged, and the next one is asked.  What the close of
a returned coroutine raises ends the emission. -/
def emitControlEvent (answer : Hook → ControlEvent → HookAnswer Error)
    (event : ControlEvent) : List Hook → Emission Error Hook
  | [] => {}
  | hook :: hooks =>
      let rest := emitControlEvent answer event hooks
      let offered := (hook, event) :: rest.offered
      match answer hook event with
      | .none => { rest with offered }
      | .raised name =>
          { rest with
            offered
            warnings := .observerFailed event.operation event.outcome name :: rest.warnings }
      | .returned name =>
          { rest with
            offered
            warnings := .observerReturnedValue event.operation name :: rest.warnings }
      | .coroutine none =>
          { rest with
            offered
            warnings := .observerReturnedValue event.operation "coroutine" :: rest.warnings
            closed := hook :: rest.closed }
      | .coroutine (some error) =>
          { offered := [(hook, event)]
            warnings := [.observerReturnedValue event.operation "coroutine"]
            raised := some error }

def ControlMeasurement.event (measurement : ControlMeasurement Hook) (clock : Int)
    (outcome : ControlOutcome) : ControlEvent where
  operation := measurement.operation
  outcome := outcome
  duration := clock - measurement.started
  execId := measurement.target.execId
  signalNumber := measurement.target.signalNumber
  pid := measurement.target.pid

def ControlMeasurement.complete (answer : Hook → ControlEvent → HookAnswer Error)
    (clock : Int) (measurement : ControlMeasurement Hook) (outcome : ControlOutcome) :
    Emission Error Hook :=
  emitControlEvent answer (measurement.event clock outcome) measurement.hooks

def completeControl (answer : Hook → ControlEvent → HookAnswer Error) (clock : Int)
    (measurement : Option (ControlMeasurement Hook)) (outcome : ControlOutcome) :
    Emission Error Hook :=
  match measurement with
  | none => {}
  | some measurement => measurement.complete answer clock outcome

/-- Nothing is raised exactly if every observer's answer is contained. -/
theorem emitControlEvent_raised_iff (answer : Hook → ControlEvent → HookAnswer Error)
    (event : ControlEvent) (hooks : List Hook) :
    (emitControlEvent answer event hooks).raised = none ↔
      hooks.all (fun hook => (answer hook event).isContained) = true := by
  induction hooks with
  | nil => simp [emitControlEvent]
  | cons hook hooks induction =>
      rw [List.all_cons, Bool.and_eq_true, ← induction]
      simp only [emitControlEvent]
      cases answer hook event with
      | none => simp [HookAnswer.isContained]
      | raised name => simp [HookAnswer.isContained]
      | returned name => simp [HookAnswer.isContained]
      | coroutine closing => cases closing <;> simp [HookAnswer.isContained]

/-- Every observer is offered the event once, in order, whatever any of them answers,
unless an answer escapes. -/
theorem emitControlEvent_offered {answer : Hook → ControlEvent → HookAnswer Error}
    {event : ControlEvent} {hooks : List Hook}
    (contained : hooks.all (fun hook => (answer hook event).isContained) = true) :
    (emitControlEvent answer event hooks).offered = hooks.map fun hook => (hook, event) := by
  induction hooks with
  | nil => rfl
  | cons hook hooks induction =>
      rw [List.all_cons, Bool.and_eq_true] at contained
      simp only [emitControlEvent, List.map_cons, ← induction contained.2]
      cases answered : answer hook event with
      | none => rfl
      | raised name => rfl
      | returned name => rfl
      | coroutine closing =>
          cases closing with
          | none => rfl
          | some error => simp [answered, HookAnswer.isContained] at contained

end Cuprum.Arbitration
