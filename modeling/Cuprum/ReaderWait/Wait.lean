import Cuprum.Transition.System

namespace Cuprum.ReaderWait

open Transition

/-! The wait for the readers of a line stream once its child has exited, over the event
loop's queue of ready callbacks. -/

inductive Consumer
  | stdout
  | stderr
  deriving DecidableEq, Repr

variable {Error Seconds : Type}

inductive Outcome (Error : Type)
  | succeeded
  | failed (error : Error)
  | cancelled
  deriving DecidableEq, Repr

/-- A reader's task that is done. -/
structure Finished (Error : Type) where
  reader : Consumer
  outcome : Outcome Error
  deriving DecidableEq, Repr

def Finished.cancelled (task : Finished Error) : Bool :=
  match task.outcome with
  | .cancelled => true
  | .succeeded | .failed _ => false

def Finished.failure (task : Finished Error) : Option Error :=
  match task.outcome with
  | .succeeded | .cancelled => none
  | .failed error => some error

def firstReaderFailure (finished : List (Finished Error)) : Option Error :=
  finished.findSome? Finished.failure

/-- What stands in the loop's queue: the two callbacks of a reader that is done, the
timer of the wait, and the wait's own next step. -/
inductive Handle (Error : Type)
  | append (task : Finished Error)
  | onCompletion (task : Finished Error)
  | releaseWaiter
  | wakeup
  deriving DecidableEq, Repr

inductive Timer
  | absent
  | armed
  | due
  | fired
  | cancelled
  deriving DecidableEq, Repr

def Timer.cancel : Timer → Timer
  | .absent => .absent
  | .armed => .cancelled
  | .due => .cancelled
  | .fired => .fired
  | .cancelled => .cancelled

inductive Ended (Error : Type)
  | returned (failure : Option Error)
  | timedOut
  | cancelled
  deriving DecidableEq, Repr

inductive Phase (Error : Type)
  | outside
  | waiting
  | finished (ended : Ended Error)
  deriving DecidableEq, Repr

/-- `completed` is the order in which the readers ended, `finished` the one their
callbacks recorded.  The collect's deadline scope, which the wait stands in, has cancelled
it once it is `expired`. -/
structure WaitState (Error : Type) where
  phase : Phase Error
  running : List Consumer
  completed : List (Finished Error) := []
  finished : List (Finished Error) := []
  ready : List (Handle Error) := []
  counter : Nat := 0
  waiterDone : Bool := false
  timer : Timer := .absent
  expired : Bool := false

/-- A stream without a pipe has no reader. -/
def readers (consumers : Consumer → Bool) : List Consumer :=
  [.stdout, .stderr].filter consumers

inductive WaitEvent (Error : Type)
  | complete (task : Finished Error)
  | begin (fs : List Consumer)
  | expire
  | onTimeout
  | turn
  deriving DecidableEq, Repr

namespace WaitState

def done (self : WaitState Error) (fs : List Consumer) : List (Finished Error) :=
  fs.filterMap fun reader => self.completed.find? (·.reader = reader)

def complete (self : WaitState Error) (task : Finished Error) : WaitState Error :=
  let ended := { self with
    running := self.running.erase task.reader
    completed := self.completed ++ [task] }
  match self.phase with
  | .waiting => { ended with ready := self.ready ++ [.append task, .onCompletion task] }
  | .outside | .finished _ => ended

/-- The callbacks are added in the order of the readers, and then by `asyncio.wait` in
that of its set. -/
def begin (self : WaitState Error) (remaining : Option Seconds)
    (readers fs : List Consumer) : WaitState Error :=
  if readers = [] then { self with phase := .finished (.returned none) }
  else
    { self with
      phase := .waiting
      ready := (self.done readers).map .append ++ (self.done fs).map .onCompletion
      counter := readers.length
      timer := if remaining.isSome then .armed else .absent }

def expire (self : WaitState Error) : WaitState Error :=
  { self with timer := .due, ready := self.ready ++ [.releaseWaiter] }

/-- `set_result` schedules the step that awaits the waiter, and so does its cancellation. -/
def setResult (self : WaitState Error) : WaitState Error :=
  if self.waiterDone then self
  else { self with waiterDone := true, ready := self.ready ++ [.wakeup] }

def onCompletion (self : WaitState Error) (task : Finished Error) : WaitState Error :=
  let counted := { self with counter := self.counter - 1 }
  if counted.counter ≤ 0 ∨ task.failure.isSome then
    { counted with timer := counted.timer.cancel }.setResult
  else counted

def releaseWaiter (self : WaitState Error) : WaitState Error :=
  if self.timer = .due then { self with timer := .fired }.setResult else self

/-- The scope's own timer cancels the task that waits. -/
def onTimeout (self : WaitState Error) : WaitState Error :=
  { self with expired := true }.setResult

/-- What the wait makes of the readers it finds finished: `gather` raises what the
first of them that was cancelled did.  A cancellation of the scope's is met at the await
of the waiter, before any reader is looked at, and leaves the scope as a `TimeoutError`. -/
def resume (self : WaitState Error) : WaitState Error :=
  let ended : Ended Error :=
    if self.expired then .timedOut
    else
      match firstReaderFailure self.finished with
      | some error => .returned (some error)
      | none =>
          if self.running ≠ [] then .timedOut
          else if self.finished.any Finished.cancelled then .cancelled
          else .returned none
  { self with phase := .finished ended }

def turn (self : WaitState Error) (rest : List (Handle Error)) :
    Handle Error → WaitState Error
  | .append task => { self with ready := rest, finished := self.finished ++ [task] }
  | .onCompletion task => { self with ready := rest }.onCompletion task
  | .releaseWaiter => { self with ready := rest }.releaseWaiter
  | .wakeup => { self with ready := rest }.resume

end WaitState

/-- A reader may end at any time until the wait is over, the timer of a bounded wait may
come due at any time in it, and that of the scope around it before the wait as well. -/
def readerWait (consumers : Consumer → Bool) (remaining : Option Seconds) :
    System (WaitState Error) (WaitEvent Error) where
  initial := { phase := .outside, running := readers consumers }
  next state event :=
    match state.phase, event with
    | .outside, .complete task | .waiting, .complete task =>
        if task.reader ∈ state.running then some (state.complete task) else none
    | .outside, .begin fs =>
        if fs.Perm (readers consumers) then
          some (state.begin remaining (readers consumers) fs)
        else none
    | .waiting, .expire => if state.timer = .armed then some state.expire else none
    | .outside, .onTimeout =>
        if remaining.isSome then
          some { state with expired := true, phase := .finished .timedOut }
        else none
    | .waiting, .onTimeout =>
        if remaining.isSome ∧ state.expired = false then some state.onTimeout else none
    | .waiting, .turn =>
        match state.ready with
        | [] => none
        | handle :: rest => some (state.turn rest handle)
    | _, _ => none

end Cuprum.ReaderWait
