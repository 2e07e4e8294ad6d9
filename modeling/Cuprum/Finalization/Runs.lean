import Cuprum.Finalization.Ledger

namespace Cuprum.Finalization

open Cuprum.Effect

variable {count : Nat} (env : Env count)

section Command

variable (env : Env 1)

def finalizePreparedCommandFailure : Step 1 := do
  shieldedCleanup env .session (closeSession env .session)
  safeEmitTerminal env only
  shieldedCleanup env .drain (drainTasksDuringCleanup env)

def prepareOwnedCommand : Step 1 := do
  openSession env
  tryCatch
    (do
      call env .prepare
      emitPlan env only
      call env (.before only)
      call env .build)
    fun error => do
      finalizePreparedCommandFailure env
      throw error

def finalizeCommandRunFailure : Step 1 := do
  shieldedCleanup env .worker (call env .worker)
  shieldedCleanup env .session (closeSession env .session)
  safeEmitTerminal env only
  shieldedCleanup env .drain (drainTasksDuringCleanup env)

def finalizeCommandRunSuccess : Step 1 := do
  shieldedCleanup env .worker (call env .worker)
  shieldedCleanup env .session (closeSession env .session)
  tryCatch (emitTerminal env only) fun error => do
    shieldedCleanup env .drain (drainTasksDuringCleanup env)
    throw error
  shieldedCleanup env .drain (waitForExecHookTasks env)

def executeWithHooks : Step 1 := do
  tryCatch
    (do
      execute env .execute
      shieldedCleanup env .bodyWorker (call env .bodyWorker)
      call env (.after only))
    fun error => do
      finalizeCommandRunFailure env
      throw error
  finalizeCommandRunSuccess env

/-- `SafeCmd.run()`. -/
def runPreparedCommand : Step 1 := do
  prepareOwnedCommand env
  executeWithHooks env

end Command

section Pipeline

def runAfterHooks : List (Fin count) → Step count
  | [] => pure ()
  | stage :: stages => do
      call env (.after stage)
      runAfterHooks stages

def emitPlanEventsAndRunBeforeHooks : List (Fin count) → Step count
  | [] => pure ()
  | stage :: stages => do
      emitPlan env stage
      call env (.before stage)
      emitPlanEventsAndRunBeforeHooks stages

/-- The events of the spawned stages are emitted on the way, and a failure settles the
stages that have been planned. -/
def spawnPipelineProcesses : Step count :=
  tryCatch
    (execute env .spawn)
    fun error => do
      call env .spawnCleanup
      emitTerminalEvents env
      throw error

def settleObserveTasks : Step count :=
  tryFinally (drainTasksDuringCleanup env) (call env .captures)

def finalizePipelineTimeout : Step count :=
  tryFinally
    (do
      shieldedCleanup env .worker (call env .worker)
      shieldedCleanup env .session (closeSession env .session)
      suppressed (emit env .reports)
      emitTerminalEvents env)
    (shieldedCleanup env .drain (settleObserveTasks env))

/-- One shield covers it all, so no cancellation comes between its steps. -/
def reconcilePipelineRunFailure : Step count :=
  tryFinally
    (do
      call env .cancelTasks
      call env .worker
      closeSession env .session
      emitTerminalEvents env)
    (settleObserveTasks env)

def finalizePipelineRunFailure : Step count :=
  shieldedCleanup env .drain (reconcilePipelineRunFailure env)

def finalizePipelineStageResultFailure : Step count :=
  tryFinally
    (do
      shieldedCleanup env .session (closeSession env .session)
      emitTerminalEvents env)
    (shieldedCleanup env .drain (settleObserveTasks env))

def finalizePipelineExecution : Step count := do
  tryCatch (runAfterHooks env (List.finRange count)) fun error => do
    shieldedCleanup env .session (closeSession env .session)
    emitResultTerminalEvents env true
    shieldedCleanup env .drain (drainTasksDuringCleanup env)
    throw error
  shieldedCleanup env .session (closeSession env .session)
  tryCatch (emitResultTerminalEvents env false) fun error => do
    shieldedCleanup env .drain (drainTasksDuringCleanup env)
    throw error
  shieldedCleanup env .drain (waitForExecHookTasks env)

def collectAndSettlePipelineInputs : Step count := do
  execute env .execute
  shieldedCleanup env .bodyWorker (call env .bodyWorker)

def runSpawnedPipeline : Step count := do
  tryCatch (collectAndSettlePipelineInputs env) fun error => do
    if error = .timedOut then
      finalizePipelineTimeout env
    else
      finalizePipelineRunFailure env
    throw error
  tryCatch (execute env .results) fun error => do
    finalizePipelineStageResultFailure env
    throw error
  tryFinally (finalizePipelineExecution env)
    (shieldedCleanup env .captures (call env .captures))

/-- The `except` clause of `_spawn_and_drive_pipeline`. -/
def finalizeUnspawned : Step count := do
  shieldedCleanup env .worker (call env .worker)
  shieldedCleanup env .session (closeSession env .session)
  emitTerminalEvents env
  shieldedCleanup env .drain (drainTasksDuringCleanup env)

def spawnAndDrivePipeline : Step count := do
  tryCatch
    (do
      call env .prepare
      emitPlanEventsAndRunBeforeHooks env (List.finRange count)
      spawnPipelineProcesses env)
    fun error => do
      finalizeUnspawned env
      throw error
  runSpawnedPipeline env

/-- The configuration opens the session; a failure while it is built closes it again,
whatever the close raises. -/
def preparePipelineConfig : Step count := do
  openSession env
  tryCatch (call env .build) fun error => do
    tryCatch (closeSession env .session) fun _ => pure ()
    throw error

def runPipeline : Step count :=
  tryFinally (spawnAndDrivePipeline env) (shieldedCleanup env .idle (call env .idle))

/-- `Pipeline.run()`; its guard closes what the runner has left open. -/
def pipelineRun : Step count := do
  preparePipelineConfig env
  tryCatch (runPipeline env) fun error => do
    shieldedCleanup env .lastGuard (closeSession env .lastGuard)
    throw error

end Pipeline

section Lines

variable (env : Env 1)

def advance (iteration : Iteration) : Step 1 :=
  modify fun ledger => { ledger with iteration := iteration }

def startLineIteration : Step 1 := do
  openSession env
  call env .build
  advance .built
  call env .refresh
  advance .awaitable
  emitPlan env only
  call env (.before only)
  advance .coordinated

def publishLineCompletion : Step 1 := do
  call env (.after only)
  emitTerminal env only

def emitLineStreamError (failure : Option Raised) : Step 1 :=
  match failure with
  | none => pure ()
  | some _ => safeEmitTerminal env only

/-- `_drain_line_stream_tasks`; a failure of the iteration is grouped with what the
tasks raise. -/
def drainLineStreamTasks (failure : Option Raised) : Step 1 :=
  match failure with
  | none | some .generatorExit => waitForExecHookTasks env
  | some _ => drainTasksDuringCleanup env

def absorbCoordinator : Step 1 := do
  let ledger ← get
  if ledger.iteration = .coordinated then
    shieldedCleanup env .coordinator (execute env .coordinator)
  else
    pure ()

def reconcileLineStream (failure : Option Raised) : Step 1 := do
  tryCatch (absorbCoordinator env) fun error => do
    emitLineStreamError env failure
    shieldedCleanup env .drain (drainLineStreamTasks env (some error))
    throw error
  emitLineStreamError env failure
  shieldedCleanup env .drain (drainLineStreamTasks env failure)

def reconcileIfStarted (failure : Option Raised) : Step 1 := do
  let ledger ← get
  match ledger.iteration with
  | .unbuilt | .built => pure ()
  | .awaitable | .coordinated => reconcileLineStream env failure

def reconcileAndClose (failure : Option Raised) : Step 1 := do
  let ledger ← get
  if ledger.iteration = .unbuilt then
    pure ()
  else
    tryFinally (reconcileIfStarted env failure)
      (shieldedCleanup env .worker (call env .worker))

def settleLineIteration (failure : Option Raised) : Step 1 :=
  tryFinally (reconcileAndClose env failure)
    (shieldedCleanup env .session (closeSession env .session))

/-- `SafeCmd.lines()`, iterated until it ends or is closed. -/
def iterLineEvents : Step 1 := do
  tryCatch
    (do
      startLineIteration env
      execute env .execute
      publishLineCompletion env
      call env .yieldResult)
    fun error => do
      settleLineIteration env (some error)
      throw error
  settleLineIteration env none

end Lines

end Cuprum.Finalization
