import Cuprum.Handle.Settlement
import Cuprum.Arbitration.Control

namespace Cuprum.Arbitration

open Handle (Raised)

variable {Error Value Result Hook : Type}

inductive Outcome (Error Value : Type)
  | succeeded (value : Value)
  | failed (error : Error)
  | cancelled
  deriving DecidableEq, Repr

def Outcome.failure : Outcome Error Value → Option Error
  | .failed error => some error
  | .succeeded _ | .cancelled => none

def Outcome.value : Outcome Error Value → Option Value
  | .succeeded value => some value
  | .failed _ | .cancelled => none

/-- The task a step runs in. -/
inductive StepTask (Error Value : Type)
  | unstarted
  | running
  | done (outcome : Outcome Error Value)
  deriving DecidableEq, Repr

/-- `_ShieldedStepFailure`. -/
structure StepReport (Error Value : Type) where
  cancellation : Bool
  failure : Option Error
  value : Option Value
  deriving DecidableEq, Repr

/-- The `await asyncio.shield(task)` a step stands at: the one of
`_run_shielded_step`, or the one in the loop of `_settle_shielded`. -/
inductive Await
  | shielded
  | settling
  deriving DecidableEq, Repr

inductive Resumed (Error Value : Type)
  | waits
  | reports (report : StepReport Error Value)
  | raises (error : Error)
  deriving DecidableEq, Repr

/-- The loop of `_settle_shielded`, entered with a cancellation to report. -/
def settleShielded : StepTask Error Value → Resumed Error Value
  | .unstarted | .running => .waits
  | .done outcome => .reports ⟨true, none, outcome.value⟩

/-- `_run_shielded_step` once its await is over: with a cancellation of the caller, or
with what the task ended with.  The loop suppresses cancellations alone. -/
def resume (interrupted : Bool) (await : Await) (task : StepTask Error Value) :
    Option (Resumed Error Value) :=
  match interrupted, task with
  | true, task => some (settleShielded task)
  | false, .unstarted | false, .running => none
  | false, .done .cancelled => some (settleShielded task)
  | false, .done (.succeeded value) =>
      match await with
      | .shielded => some (.reports ⟨false, none, some value⟩)
      | .settling => some (settleShielded task)
  | false, .done (.failed error) =>
      match await with
      | .shielded => some (.reports ⟨false, some error, none⟩)
      | .settling => some (.raises error)

def arbitrate {Settled : Type} (stopStep : StepReport Error Value)
    (settleStep : StepReport Error Settled) (pending : Option (Raised Error)) :
    Option (Raised Error) :=
  if stopStep.cancellation || settleStep.cancellation then some .cancelled
  else
    match stopStep.failure.or settleStep.failure with
    | none => none
    | some error => if pending.isNone then some (.error error) else none

end Cuprum.Arbitration
