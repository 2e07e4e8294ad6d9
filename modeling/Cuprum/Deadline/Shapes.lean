import Cuprum.Deadline.Collection

namespace Cuprum.Deadline

open Cuprum.Effect

section Programs

variable {ε : Type} (env : Env ε)

/-- `_raise_direct_writer_timeout`. -/
def raiseDirectWriterTimeout (error : Raised ε) : Step ε Unit :=
  if error.isWriterFailure then throw error else handleStreamTimeout env

/-- Without a deadline the writer is given a window instead. -/
def awaitWriterWithinDeadline : Step ε Unit :=
  if env.timeout = .absent then settleStdinWriter env
  else
    tryCatch (timeoutScope env (awaitWriterToCompletion env)) fun error =>
      if env.isTimeoutError error then raiseDirectWriterTimeout env error
      else throw error

/-- Here the group is torn down after the writer has been stopped. -/
def settleWriterThenGroup : Step ε Unit := do
  cancelStdinWriter env
  settleOwnedGroupBeforeDraining env

def cleanupDirectRun : Step ε Unit :=
  shieldedCleanup env .cleanup (settleWriterThenGroup env)

def runSubprocessWithoutStreams : Step ε Unit :=
  tryCatch (do
    awaitExitOrWriterFailure env
    if env.feeds then awaitWriterWithinDeadline env else pure ()) fun error => do
      cleanupDirectRun env
      throw error

/-- `_reconcile_shielded`, and `_cleanup_failed_line_stream_run`. -/
def reconcileShielded (preserve : Bool) : Step ε Unit :=
  shieldedCleanup env .reconcile (reconcileRunTasks env preserve)

/-- `_settle_group_and_reconcile_consumers`, and `_settle_and_reconcile` of `lines()`. -/
def settleGroupAndReconcileConsumers (preserve : Bool) : Step ε Unit :=
  shieldedCleanup env .reconcile (settleThenReconcile env preserve)

/-- What a failed wait for the exit is answered with, as an expiry or as a failure. -/
def reconcileFailure (expires : Bool) (error : Raised ε) : Step ε Unit := do
  reconcileShielded env expires
  if expires then handleStreamTimeout env else throw error

/-- What a failed collection is answered with. -/
def settleFailure {α : Type} (expires : Bool) (error : Raised ε) : Step ε α := do
  settleGroupAndReconcileConsumers env expires
  if expires then handleStreamTimeout env else throw error

/-- Any `TimeoutError` is taken for the expiry. -/
def waitForStreamedProcessExit : Step ε Unit :=
  tryCatch (awaitExitOrWriterFailure env) fun error =>
    reconcileFailure env (env.isTimeoutError error) error

/-- A `TimeoutError` is the expiry if the timer of the scope has fired. -/
def collectStreamOutput : Step ε Unit :=
  tryCatch (timeoutScope env do
    stopIdleMonitorInScope env
    awaitStdinWriter env
    gatherConsumers env) fun error => do
      let ledger ← get
      settleFailure env (env.isTimeoutError error && ledger.expired) error

def runSubprocessWithStreams : Step ε Unit := do
  waitForStreamedProcessExit env
  collectStreamOutput env
  shieldedCleanup env .finalize (pure ())

/-- A `TimeoutError` is the expiry unless it is the writer's. -/
def awaitLineStreamExit : Step ε Unit :=
  tryCatch (awaitExitOrWriterFailure env) fun error =>
    reconcileFailure env (env.isTimeoutError error && !error.isWriterFailure) error

def readConsumedDrains : Step ε Unit :=
  if env.interrupts .drains then do
    strike (.cancelled .drains)
    throw .cancelled
  else pure ()

/-- A `TimeoutError` is the expiry if the timer of the scope has fired, or if it is not the
writer's. A reader's own failure is raised once the scope has closed. -/
def collectLineStreamAfterExit : Step ε Unit := do
  let failure ← tryCatch (timeoutScope env do
    stopIdleMonitorInScope env
    awaitStdinWriter env
    awaitConsumers env) fun error => do
      let ledger ← get
      settleFailure env
        (env.isTimeoutError error && (ledger.expired || !error.isWriterFailure)) error
  match failure with
  | some error => do
      strike (.own .readers error)
      settleFailure env false (.own .reader error)
  | none => readConsumedDrains env

def waitForLineStreamExit : Step ε Unit := do
  awaitLineStreamExit env
  collectLineStreamAfterExit env

/-- Only without consumers is a bare `TimeoutError` the expiry. -/
def translateDirectFailure (hasConsumers : Bool) (error : Raised ε) : Step ε Unit :=
  match error with
  | .subprocessTimeout => translateRunTimeout env false
  | error =>
      if env.isTimeoutError error && !hasConsumers then translateRunTimeout env true
      else throw error

def awaitDirectCompletion (hasConsumers : Bool) : Step ε Unit :=
  tryFinally
    (tryCatch
      (if hasConsumers then runSubprocessWithStreams env
        else runSubprocessWithoutStreams env)
      (translateDirectFailure env hasConsumers))
    (shieldedCleanup env .idle stopIdleMonitor)

/-- Only a wrapped expiry is translated. -/
def translateLineFailure (error : Raised ε) : Step ε Unit :=
  match error with
  | .subprocessTimeout => translateRunTimeout env false
  | error => throw error

def awaitSettledDrains : Step ε Unit :=
  tryCatch (waitForLineStreamExit env) (translateLineFailure env)

/-- `_execute_subprocess`, once the child is started, and `_assemble_line_stream_result`. -/
def Shape.run : Shape → Step ε Unit
  | .direct => do
      awaitDirectCompletion env false
      emitExitEvent env
  | .streamed => do
      awaitDirectCompletion env true
      emitExitEvent env
  | .lines => do
      awaitSettledDrains env
      shieldedCleanup env .finalize (pure ())
      emitExitEvent env

/-- The run as it is started: its writer, and with readers its heartbeat. -/
def Shape.started : Shape → Ledger ε
  | .direct => { writer := if env.feeds then .running else .absent }
  | .streamed | .lines =>
      { writer := if env.feeds then .running else .absent
        readers := .running
        beating := env.watches }

end Programs

end Cuprum.Deadline
