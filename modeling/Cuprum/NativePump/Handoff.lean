import Cuprum.Effect.Program

namespace Cuprum.NativePump

open Cuprum.Effect

/-- What a call can raise, as far as the `except` clauses of the hand-off tell
it apart. -/
inductive Raised
  | osError
  | valueError
  | other
  | stateDuplication
  | blockingMode
  deriving DecidableEq

namespace Raised

def isOsOrValue : Raised → Bool
  | osError | valueError => true
  | _ => false

end Raised

inductive Descriptor
  | stateReader
  | stateWriter
  | nativeReader
  | nativeWriter
  deriving DecidableEq

/-- Who closes a descriptor: the code that starts the hop, the submitted job, or
the completion callback. -/
inductive Closer
  | start
  | job
  | callback
  deriving DecidableEq

inductive Transport
  | flowing
  | paused
  | closed
  deriving DecidableEq

def Transport.resumeReading : Transport → Transport
  | paused => flowing
  | transport => transport

inductive NativeIo
  | idle
  | running
  | stopped
  deriving DecidableEq

inductive CleanupWinner
  | deferral
  | completion
  deriving DecidableEq

inductive RustPumpHandoffOutcome
  | submitted
  | nativeLoadFailed
  | duplicateWriterFailed
  | blockingSetupFailed
  | executorSubmissionRejected
  | bufferValidationFailed
  | readerPreparationFailed
  deriving DecidableEq

inductive PumpHopOutcome
  | succeeded
  | failed
  | cancelled
  | failedAfterCancel
  deriving DecidableEq

/-- The calls that can raise, by their place in the source. -/
inductive Site
  | drainReader
  | openStateReader
  | openStateWriter
  | getReaderBlocking
  | getWriterBlocking
  | setReaderBlocking
  | setWriterBlocking
  | rollbackReaderBlocking
  | observeDecline
  | importRustPump
  | dupNativeReader
  | dupNativeWriter
  | logDuplicateWriter
  | openSpans
  | submit
  | logExecutorSubmission
  | closeSpans
  | restoreReader
  | restoreWriter
  | emitOutcome
  | loadNative
  | validateBufferSize
  | prepareReader
  | logReaderPreparation
  | logFailedAfterCancel
  | logCleanupDeferred
  deriving DecidableEq

abbrev Faults := Site → Option Raised

structure BlockingModes where
  reader : Bool
  writer : Bool
  deriving DecidableEq

/-- One hop.  The descriptors are the ones opened for it; `restorations` records
what the native I/O was doing at every restoration of the blocking modes, `refusals`
the calls that failed to give one of them back. -/
structure Hop where
  transport : Transport
  modes : BlockingModes
  opened : List Descriptor := []
  closed : List (Descriptor × Closer) := []
  engaged : Bool := false
  restorations : List NativeIo := []
  refusals : List Site := []
  io : NativeIo := .idle
  submitted : Bool := false
  retained : Bool := false
  wasCancelled : Bool := false
  wasDeferred : Bool := false
  cleanupCompleted : Bool := false
  winners : List CleanupWinner := []
  handoffOutcomes : List RustPumpHandoffOutcome := []
  spanOutcomes : List PumpHopOutcome := []
  deriving DecidableEq

abbrev Step := Program Hop Raised

structure BlockingModeGuard where
  readerWasBlocking : Bool
  writerWasBlocking : Bool
  deriving DecidableEq

structure RustPumpState where
  guard : BlockingModeGuard
  resumeReader : Bool
  releaseReader : Bool
  deriving DecidableEq

section Calls

variable (faults : Faults)

def call (site : Site) : Step Unit :=
  match faults site with
  | none => pure ()
  | some error => throw error

def openFd (site : Site) (descriptor : Descriptor) : Step Unit := do
  call faults site
  modify fun hop => { hop with opened := hop.opened ++ [descriptor] }

/-- `os.close` gives the number back even where it reports an `OSError`, and every
caller suppresses that report. -/
def closeFd (closer : Closer) (descriptor : Descriptor) : Step Unit :=
  modify fun hop => { hop with closed := hop.closed ++ [(descriptor, closer)] }

def suppressedTeardownFailure (body : Step Unit) : Step Unit :=
  tryCatch body fun error =>
    if error.isOsOrValue then pure () else throw error

/-- Hooks and tracers are called here; what they raise may be absorbed on the way,
and the site stands for what is not. -/
def emitRustPumpHandoffOutcome (outcome : RustPumpHandoffOutcome) : Step Unit := do
  modify fun hop => { hop with handoffOutcomes := hop.handoffOutcomes ++ [outcome] }
  call faults .emitOutcome

def closePumpHopSpans (outcome : PumpHopOutcome) : Step Unit := do
  modify fun hop => { hop with spanOutcomes := hop.spanOutcomes ++ [outcome] }
  call faults .closeSpans

def resumeReaderTransport (resumeReader : Bool) : Step Unit :=
  if resumeReader then
    modify fun hop => { hop with transport := hop.transport.resumeReading }
  else
    pure ()

def setReaderBlocking (site : Site) (blocking : Bool) : Step Unit := do
  call faults site
  modify fun hop => { hop with modes := { hop.modes with reader := blocking } }

def setWriterBlocking (site : Site) (blocking : Bool) : Step Unit := do
  call faults site
  modify fun hop => { hop with modes := { hop.modes with writer := blocking } }

def givingBack (site : Site) (body : Step Unit) : Step Unit :=
  tryCatch body fun error => do
    modify fun hop => { hop with refusals := hop.refusals ++ [site] }
    throw error

def openNativePumpWorkerFds : Step Bool := do
  tryCatch
    (do
      openFd faults .openStateReader .stateReader
      tryCatch
        (do
          openFd faults .openStateWriter .stateWriter
          pure true)
        fun error =>
          if error.isOsOrValue then do
            closeFd .start .stateReader
            pure false
          else
            throw error)
    fun error => if error.isOsOrValue then pure false else throw error

def duplicateRustPumpStateFds : Step Unit := do
  let opened ← openNativePumpWorkerFds faults
  if opened then pure () else throw .stateDuplication

def makeBlocking (wasBlocking : Bool) (switch : Step Unit) : Step Unit :=
  if wasBlocking then pure () else switch

/-- The reader goes back only where it was switched, and only for the errors the
source expects of a mode change. -/
def rollbackReaderBlocking (readerWasBlocking : Bool) (error : Raised) : Step Unit :=
  if error.isOsOrValue && !readerWasBlocking then
    suppressedTeardownFailure
      (givingBack .rollbackReaderBlocking
        (setReaderBlocking faults .rollbackReaderBlocking readerWasBlocking))
  else
    pure ()

def setStreamFdsBlocking : Step BlockingModeGuard := do
  call faults .getReaderBlocking
  let readerWasBlocking := (← get).modes.reader
  call faults .getWriterBlocking
  let writerWasBlocking := (← get).modes.writer
  makeBlocking readerWasBlocking (setReaderBlocking faults .setReaderBlocking true)
  tryCatch
    (makeBlocking writerWasBlocking (setWriterBlocking faults .setWriterBlocking true))
    fun error => do
      rollbackReaderBlocking faults readerWasBlocking error
      throw error
  modify fun hop => { hop with engaged := true }
  pure { readerWasBlocking, writerWasBlocking }

def engageRustPumpBlockingMode : Step BlockingModeGuard :=
  tryCatch (setStreamFdsBlocking faults) fun error => do
    closeFd .start .stateReader
    closeFd .start .stateWriter
    throw (if error.isOsOrValue then .blockingMode else error)

def createRustPumpState (resumeReader releaseReader : Bool) : Step RustPumpState := do
  duplicateRustPumpStateFds faults
  let guard ← engageRustPumpBlockingMode faults
  pure { guard, resumeReader, releaseReader }

def BlockingModeGuard.restore (guard : BlockingModeGuard) : Step Unit := do
  modify fun hop => { hop with restorations := hop.restorations ++ [hop.io] }
  suppressedTeardownFailure
    (givingBack .restoreReader
      (setReaderBlocking faults .restoreReader guard.readerWasBlocking))
  suppressedTeardownFailure
    (givingBack .restoreWriter
      (setWriterBlocking faults .restoreWriter guard.writerWasBlocking))

def restoreRustPumpState (state : RustPumpState) : Step Unit := do
  state.guard.restore faults
  resumeReaderTransport state.resumeReader

def closeRustPumpStateFds (closer : Closer) : Step Unit := do
  closeFd closer .stateReader
  closeFd closer .stateWriter

def duplicateNativePumpFds : Step Unit := do
  openFd faults .dupNativeReader .nativeReader
  tryCatch (openFd faults .dupNativeWriter .nativeWriter) fun error => do
    closeFd .start .nativeReader
    throw error

def closeNativePumpFds (duplicated : Bool) : Step Unit :=
  if duplicated then
    tryFinally (closeFd .start .nativeReader) (closeFd .start .nativeWriter)
  else
    pure ()

/-- The exit stack runs its callbacks in reverse, each whatever the others raise. -/
def rollbackRustPumpStart (state : RustPumpState) (outcome : RustPumpHandoffOutcome)
    (duplicated : Bool) : Step Unit :=
  tryFinally
    (tryFinally
      (tryFinally
        (tryFinally (closePumpHopSpans faults .failed)
          (closeNativePumpFds duplicated))
        (restoreRustPumpState faults state))
      (closeRustPumpStateFds .start))
    (emitRustPumpHandoffOutcome faults outcome)

def submitRustPump : Step Unit := do
  call faults .openSpans
  call faults .submit
  modify fun hop => { hop with submitted := true }

def startRustPumpWithCleanup (state : RustPumpState) : Step Unit := do
  tryCatch (call faults .importRustPump) fun error => do
    rollbackRustPumpStart faults state .nativeLoadFailed false
    throw error
  tryCatch (duplicateNativePumpFds faults) fun error => do
    call faults .logDuplicateWriter
    rollbackRustPumpStart faults state .duplicateWriterFailed false
    throw error
  tryCatch (submitRustPump faults) fun error => do
    call faults .logExecutorSubmission
    rollbackRustPumpStart faults state .executorSubmissionRejected true
    throw error

/-- The hop up to the executor's acceptance, from a reader pause that permits it.
`none` is a hop declined to the Python pump. -/
def pumpOverRawFds (resume release : Bool) : Step (Option RustPumpState) := do
  tryCatch (call faults .drainReader) fun error => do
    resumeReaderTransport resume
    throw error
  let created ←
    tryCatch (do return some (← createRustPumpState faults resume release)) fun error =>
      match error with
      | .stateDuplication => do
          resumeReaderTransport resume
          call faults .observeDecline
          emitRustPumpHandoffOutcome faults .duplicateWriterFailed
          pure none
      | .blockingMode => do
          resumeReaderTransport resume
          call faults .observeDecline
          emitRustPumpHandoffOutcome faults .blockingSetupFailed
          pure none
      | error => throw error
  match created with
  | none => pure none
  | some state => do
      startRustPumpWithCleanup faults state
      pure (some state)

/-- What the submitted job does before the native call owns the writer. -/
def prepareRustPumpCall : Step Unit := do
  tryCatch (call faults .loadNative) fun error => do
    closeFd .job .nativeWriter
    emitRustPumpHandoffOutcome faults .nativeLoadFailed
    throw error
  tryCatch (call faults .validateBufferSize) fun error => do
    closeFd .job .nativeWriter
    emitRustPumpHandoffOutcome faults .bufferValidationFailed
    throw error
  tryCatch (call faults .prepareReader) fun error => do
    call faults .logReaderPreparation
    closeFd .job .nativeWriter
    emitRustPumpHandoffOutcome faults .readerPreparationFailed
    throw error

def completeCleanup : Step Bool := do
  let wasDeferred := (← get).wasDeferred
  modify fun hop => { hop with
    cleanupCompleted := true
    winners := if wasDeferred then hop.winners else hop.winners ++ [.completion] }
  pure wasDeferred

def recordCompletion : Step Unit := do
  let wasDeferred ← completeCleanup
  if wasDeferred then
    call faults .logCleanupDeferred
  modify fun hop => { hop with retained := false }

def finalizeNativePumpResources (state : RustPumpState) : Step Unit :=
  tryFinally (closeFd .callback .nativeReader)
    (tryFinally (suppressedTeardownFailure (state.guard.restore faults))
      (tryFinally (closeRustPumpStateFds .callback) (recordCompletion faults)))

def classifyPumpOutcome (failed wasCancelled : Bool) : PumpHopOutcome :=
  if failed then
    if wasCancelled then .failedAfterCancel else .failed
  else if wasCancelled then
    .cancelled
  else
    .succeeded

/-- The completion callback, short of its last clause, which signals the loop. -/
def completeRustPump (state : RustPumpState) (failed : Bool) : Step Unit := do
  let outcome := classifyPumpOutcome failed (← get).wasCancelled
  tryFinally
    (if outcome = .failedAfterCancel then call faults .logFailedAfterCancel else pure ())
    (tryFinally (closePumpHopSpans faults outcome)
      (finalizeNativePumpResources faults state))

end Calls

end Cuprum.NativePump
