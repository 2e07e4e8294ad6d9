import Cuprum.Effect.Program

namespace Cuprum.Deadline

open Cuprum.Effect

/-- `execution.timeout`. -/
inductive Timeout
  | absent
  | nonPositive
  | positive
  deriving DecidableEq

/-- Whose an error is. -/
inductive Origin
  | child
  | writer
  | reader
  | hook
  deriving DecidableEq

/-- Where a run is suspended, and where a cancellation of its caller can reach it. -/
inductive Site
  | race
  | exit
  | terminate
  | abandon
  | heartbeat
  | writer
  | window
  | readers
  | drains
  | reconcile
  | cleanup
  | finalize
  | idle
  | event
  deriving DecidableEq

/-- The errors that run through the loops. A timeout scope ends its body by an `expiry`, and
raises a `TimeoutError` of its own, the `deadline`, in its place. -/
inductive Raised (ε : Type)
  | cancelled
  | expiry
  | deadline
  | own (origin : Origin) (error : ε)
  | subprocessTimeout
  | invariant
  | timeoutExpired

/-- What has ended an await of the run otherwise than by returning. -/
inductive Strike (ε : Type)
  | cancelled (site : Site)
  | deadline (site : Site)
  | own (site : Site) (error : ε)

/-- What an await of the run itself comes to. -/
inductive Answer
  | returns
  | cancelled
  | expires
  deriving DecidableEq

/-- What a run is given and what it meets: what bounds, feeds and watches it, what its awaits
come to, where a cancellation reaches a shield, and what its tasks end with. An error is late
where the timer of the scope around it has fired before, and a wait lapses where the budget
it is given itself runs out. A writer may outlive the time it is given to unwind, and the
readers may both have finished by the time that something would cancel them. -/
structure Env (ε : Type) where
  timeout : Timeout
  feeds : Bool
  owns : Bool
  watches : Bool
  isTimeout : ε → Bool
  answers : Site → Answer
  interrupts : Site → Bool
  exitDone : Bool
  ends : Site → Bool
  eof : Bool
  late : Bool
  lapses : Bool
  outlives : Bool
  finished : Bool
  child : Option ε
  writer : Option ε
  reader : Option ε
  hook : Option ε
  expires_timed : ∀ site, answers site = .expires → timeout = .positive
  late_timed : late = true → timeout = .positive
  lapses_timed : lapses = true → timeout = .positive

/-- A writer that has been stopped was cancelled and has unwound in the time it is given; a
pending one is unwinding still. -/
inductive Writer (ε : Type)
  | absent
  | running
  | ended (failure : Option ε)
  | stopped
  | pending

inductive Readers
  | absent
  | running
  | ended
  | cancelled
  | settled
  deriving DecidableEq

/-- The tasks of the run; whether its child, and the group it owns, has been given the
teardown sequence; whether readers have been cancelled before that; whether the timer of the
last scope has fired; and all that has struck the run. -/
structure Ledger (ε : Type) where
  writer : Writer ε := .absent
  readers : Readers := .absent
  beating : Bool := false
  torn : Bool := false
  hasty : Bool := false
  expired : Bool := false
  met : List (Strike ε) := []

abbrev Step (ε α : Type) := Program (Ledger ε) (Raised ε) α

variable {ε α : Type} (env : Env ε)

/-- `isinstance(error, TimeoutError)`. -/
def Env.isTimeoutError : Raised ε → Bool
  | .deadline | .timeoutExpired => true
  | .own _ error => env.isTimeout error
  | _ => false

/-- `isinstance(error, asyncio.CancelledError)`. -/
def Raised.isCancellation : Raised ε → Bool
  | .cancelled | .expiry => true
  | _ => false

def strike (what : Strike ε) : Step ε Unit :=
  modify fun ledger => { ledger with met := ledger.met ++ [what] }

/-- Whose errors come up at a site. -/
def Site.origin : Site → Origin
  | .exit => .child
  | .readers | .drains => .reader
  | .event => .hook
  | _ => .writer

def fail (site : Site) (error : ε) : Step ε α := do
  strike (.own site error)
  throw (.own site.origin error)

def Writer.finish (failure : Option ε) : Writer ε → Writer ε
  | .running => .ended failure
  | writer => writer

/-- The writer comes to its end. -/
def endWriter : Step ε Unit :=
  modify fun ledger => { ledger with writer := ledger.writer.finish env.writer }

/-- The writer runs while the run is suspended. -/
def suspend (site : Site) : Step ε Unit :=
  if env.ends site then endWriter env else pure ()

def await (site : Site) : Step ε Unit := do
  suspend env site
  match env.answers site with
  | .returns => pure ()
  | .cancelled => do
      strike (.cancelled site)
      throw .cancelled
  | .expires => do
      strike (.deadline site)
      throw .expiry

/-- `_shielded_cleanup`. -/
def shieldedCleanup (site : Site) (cleanup : Step ε Unit) : Step ε Unit :=
  if env.interrupts site then
    shielded (some .cancelled) (tryFinally cleanup (strike (.cancelled site)))
  else cleanup

/-- `asyncio.timeout`. -/
def timeoutScope (body : Step ε α) : Step ε α := do
  modify fun ledger => { ledger with expired := false }
  tryCatch body fun error =>
    match error with
    | .expiry => do
        modify fun ledger => { ledger with expired := true }
        throw .deadline
    | .own origin own => do
        modify fun ledger => { ledger with expired := env.late }
        throw (.own origin own)
    | other => throw other

/-- A task of its own, whose outcome nobody asks for. -/
def unobserved (task : Step ε Unit) : Step ε Unit :=
  fun ledger => .ok () { left task ledger with met := ledger.met }

/-- `_stdin_writer_failure`. -/
def stdinWriterFailure : Step ε (Option ε) := do
  match (← get).writer with
  | .ended failure => pure failure
  | _ => pure none

/-- `_stdin_writer_failure(…) is error`: what is the writer's is raised as the very object
that its task has ended on. -/
def Raised.isWriterFailure : Raised ε → Bool
  | .own .writer _ => true
  | _ => false

/-- `_terminate_all_shielded` of the one child. -/
def terminateAllShielded : Step ε Unit :=
  shieldedCleanup env .terminate (modify fun ledger => { ledger with torn := true })

def settleOwnedGroupBeforeDraining : Step ε Unit :=
  if env.owns then modify fun ledger => { ledger with torn := true } else pure ()

def stopIdleMonitor : Step ε Unit :=
  modify fun ledger => { ledger with beating := false }

/-- A writer that absorbs its cancellation is left pending when its budget is over. -/
def Writer.stop (outlives : Bool) : Writer ε → Writer ε
  | .running | .pending => if outlives then .pending else .stopped
  | writer => writer

def cancelStdinWriter : Step ε Unit :=
  modify fun ledger => { ledger with writer := ledger.writer.stop env.outlives }

/-- Readers that are not done are cancelled. -/
def cancelReaders : Step ε Unit :=
  modify fun ledger =>
    if ledger.readers = .running then
      if env.finished then { ledger with readers := .ended }
      else { ledger with readers := .cancelled, hasty := ledger.hasty || !ledger.torn }
    else ledger

def settleReaders : Step ε Unit :=
  modify fun ledger =>
    { ledger with readers := if ledger.readers = .absent then .absent else .settled }

/-- `_drain_stream_consumers`: readers whose output is kept are given a grace. -/
def drainStreamConsumers (preserve : Bool) : Step ε Unit := do
  if preserve && env.eof then pure () else cancelReaders env
  settleReaders

def reconcileRunTasks (preserve : Bool) : Step ε Unit := do
  stopIdleMonitor
  cancelStdinWriter env
  drainStreamConsumers env preserve

/-- `_require_timeout`. -/
def requireTimeout : Step ε Unit :=
  if env.timeout = .absent then throw .invariant else pure ()

def handleStreamTimeout : Step ε α := do
  requireTimeout env
  throw .subprocessTimeout

/-- `_emit_exit_event`. -/
def emitExitEvent : Step ε Unit :=
  match env.hook with
  | some error => fail .event error
  | none => pure ()

/-- A wrapped expiry has had its timeout required before. -/
def requireTimeoutOfBare (bare : Bool) : Step ε Unit :=
  if bare then requireTimeout env else pure ()

/-- `_translate_run_timeout`, of a bare `TimeoutError` or of a wrapped one. -/
def translateRunTimeout (bare : Bool) : Step ε α := do
  requireTimeoutOfBare env bare
  emitExitEvent env
  throw .timeoutExpired

end Cuprum.Deadline
