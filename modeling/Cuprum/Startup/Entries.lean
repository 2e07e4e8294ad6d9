import Cuprum.Startup.Ledger

namespace Cuprum.Startup

open Cuprum.Effect

section Single

variable (env : Env 1)

/-- The stage of an entry that has no other. -/
def only : Fin 1 :=
  Fin.last 0

def emitOwnedPathOpen (stream : Stream) : Step 1 :=
  if env.binding stream = .ownedPath then do
    call env (.openPath stream)
    modify fun ledger => { ledger with opened := ledger.opened ++ [stream] }
  else
    pure ()

def closeOwnedStdio : Step 1 :=
  modify fun ledger => { ledger with
    closes := fun stream => ledger.closes stream + ledger.opened.count stream }

def openOwnedStdio : Step 1 :=
  tryCatch
    (do
      emitOwnedPathOpen env .stdout
      emitOwnedPathOpen env .stderr)
    fun error => do
      closeOwnedStdio
      throw error

def flushBorrowed (stream : Stream) : Step 1 :=
  if env.binding stream = .borrowed then call env (.flush stream) else pure ()

def flushBorrowedStdio : Step 1 := do
  flushBorrowed env .stdout
  flushBorrowed env .stderr

def birth : Step 1 :=
  modify fun ledger => { ledger with child := fun _ => .live }

def settleSpawnedChild : Step 1 :=
  shieldedCleanup env .terminate (terminate env [only])

def spawnWait4Process : Step 1 := do
  call env .popen
  birth
  tryCatch (call env .connectPipes) fun error => do
    settleSpawnedChild env
    throw error

def spawnDirectProcess : Step 1 :=
  if env.wait4 then
    spawnWait4Process env
  else do
    createSubprocessExec env .popen only
    birth

def spawnSubprocess : Step 1 := do
  openOwnedStdio env
  tryFinally
    (do
      flushBorrowedStdio env
      spawnDirectProcess env)
    closeOwnedStdio

def startOwnedProcess : Step 1 := do
  spawnSubprocess env
  call env (.start only)

def spawnStdinWriter : Step 1 :=
  if env.feeds then do
    call env .writer
    create .writer
  else
    pure ()

def spawnConsumer (stream : Stream) : Step 1 :=
  if env.binding stream = .pipe then do
    call env (.consumer only stream)
    create (.consumer only stream)
  else
    pure ()

def spawnStreamConsumers : Step 1 := do
  spawnConsumer env .stdout
  spawnConsumer env .stderr

def buildRunTaskOwnership : Step 1 := do
  spawnStdinWriter env
  spawnStreamConsumers env

/-- `_execute_subprocess` for a run that reads neither output, until its writer is
owned. -/
def runSubprocessWithoutStreams : Step 1 := do
  startOwnedProcess env
  spawnStdinWriter env

/-- `_execute_subprocess` for a run that reads an output, until its tasks are owned; its
`finally` clause stops the heartbeat. -/
def runSubprocessWithStreams : Step 1 := do
  startOwnedProcess env
  tryCatch
    (do
      launchIdleMonitor env
      call env .prepare
      buildRunTaskOwnership env)
    fun error => do
      shieldedCleanup env .heartbeat (stopIdleMonitor env)
      throw error

def detachRunTasks : Step 1 := do
  let ledger ← get
  if ledger.recorded = [] then
    pure ()
  else do
    settle ledger.recorded
    call env .detach

/-- The consumers are recorded once both have been made. -/
def attachRunTasks : Step 1 := do
  call env .prepare
  tryCatch
    (do
      spawnStdinWriter env
      record (if env.feeds then [.writer] else [])
      spawnStreamConsumers env
      record (([Stream.stdout, .stderr].filter fun stream =>
        env.binding stream = .pipe).map fun stream => Job.consumer only stream))
    fun error => do
      detachRunTasks env
      throw error

def startHandleRun : Step 1 := do
  spawnSubprocess env
  tryCatch
    (do
      call env (.start only)
      attachRunTasks env)
    fun error => do
      shieldedCleanup env .terminate (terminate env [only])
      throw error

def buildUnstartedRun : Step 1 := do
  call env .prepare
  buildRunTaskOwnership env

/-- The consumers are drained and their captures released; the writer is not theirs. -/
def discardDrain : Step 1 := do
  call env .drainStarted
  shieldedCleanup env .drain do
    suspend env
    settle [.consumer only .stdout, .consumer only .stderr]
    release
  call env .drainCompleted

def abandonUnstartedRun : Step 1 := do
  stopIdleMonitor env
  call env .teardownStarted
  shieldedCleanup env .terminate (terminate env [only])
  discardDrain env
  call env .teardownCompleted

def startLineStreamRun : Step 1 := do
  spawnSubprocess env
  buildUnstartedRun env
  tryCatch
    (do
      launchIdleMonitor env
      call env (.start only)
      call env .spawned)
    fun error => do
      abandonUnstartedRun env
      throw error

end Single

section Pipeline

variable {count : Nat} (env : Env count)

def createCaptureTask (stage : Fin count) (stream : Stream) : Step count := do
  call env (.callback stage stream)
  if env.consumes stream then do
    call env (.consumer stage stream)
    create (.consumer stage stream)
  else
    pure ()

def createOutputTask (stage : Fin count) (last : Bool) : Step count :=
  if last then createCaptureTask env stage .stdout else pure ()

/-- The stage's tasks are recorded once all of them have been made. -/
def createStageCaptureTasks (stage : Fin count) (last : Bool) : Step count := do
  createCaptureTask env stage .stderr
  createOutputTask env stage last
  record (([Stream.stderr, .stdout].filter fun stream =>
    env.consumes stream && (last || stream = .stderr)).map (Job.consumer stage))

def launchFirst (first : Bool) : Step count :=
  if first then launchIdleMonitor env else pure ()

def spawnStage (stage : Fin count) (first last : Bool) : Step count := do
  suspend env
  createSubprocessExec env (.spawn stage) stage
  modify fun ledger => { ledger with
    child := Function.update ledger.child stage .live
    processes := ledger.processes ++ [stage] }
  call env (.start stage)
  launchFirst env first
  createStageCaptureTasks env stage last

def spawnPipelineStages (first : Bool) : List (Fin count) → Step count
  | [] => pure ()
  | stage :: stages => do
      spawnStage env stage first stages.isEmpty
      spawnPipelineStages false stages

def cancelStageTasksAndSinks (tasks : List (Job count)) : Step count := do
  suspend env
  settle tasks
  release

def cleanupSpawnedProcesses : Step count := do
  let staged ← get
  shieldedCleanup env .terminate (terminate env staged.processes)
  shieldedCleanup env .drain (cancelStageTasksAndSinks env staged.recorded)

def spawnPipelineProcesses : Step count :=
  tryCatch (spawnPipelineStages env true (List.finRange count)) fun error => do
    stopIdleMonitor env
    cleanupSpawnedProcesses env
    call env .terminals
    throw error

end Pipeline

end Cuprum.Startup
