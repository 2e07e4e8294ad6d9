import Cuprum.Transition.System
import Mathlib.Data.List.Sort

namespace Cuprum.Pipeline

variable {τ : Type}

/-- Bookkeeping for awaiting all stages of a pipeline; the moments are readings
of clocks the transitions are handed. -/
structure PipelineWaitState (τ : Type) where
  exitCodes : List (Option Int)
  startedAt : List τ
  endedAt : List (Option τ)
  wallClockStartedAt : List τ
  failureIndex : Option Nat

namespace PipelineWaitState

def fromProcesses (stages : Nat) (startedAt wallClockStartedAt : List τ) :
    PipelineWaitState τ :=
  { exitCodes := List.replicate stages none
    startedAt
    endedAt := List.replicate stages none
    wallClockStartedAt
    failureIndex := none }

/-- Record a stage's completion.  The second component is what the source
returns: whether this is a first failure on a stage that is not the last. -/
def recordCompletion (state : PipelineWaitState τ) (completedIdx : Nat)
    (exitCode : Int) (endedAt : τ) : PipelineWaitState τ × Bool :=
  let isFirstFailure := state.failureIndex.isNone && exitCode != 0
  ({ state with
      exitCodes := state.exitCodes.set completedIdx (some exitCode)
      endedAt := state.endedAt.set completedIdx (some endedAt)
      failureIndex := if isFirstFailure then some completedIdx else state.failureIndex },
    isFirstFailure && completedIdx + 1 != state.exitCodes.length)

def shouldTerminateOthers (state : PipelineWaitState τ) (completedIdx : Nat) : Bool :=
  state.failureIndex == some completedIdx &&
    completedIdx + 1 != state.exitCodes.length

end PipelineWaitState

/-- Whose process groups a teardown may signal: one flag for every process or
one flag for each. -/
inductive OwnsGroup
  | all (flag : Bool)
  | each (flags : List Bool)
  deriving DecidableEq

def OwnsGroup.ownsGroupFor (ownsGroup : OwnsGroup) (index : Nat) : Bool :=
  match ownsGroup with
  | all flag => flag
  | each flags => flags.getD index false

def OwnsGroup.ownershipOf (ownsGroup : OwnsGroup) (count : Nat) : List Bool :=
  (List.range count).map ownsGroup.ownsGroupFor

def stageMayOwnLiveGroup (index : Nat) (ownsGroup : List Bool) : Bool :=
  ownsGroup.getD index false

/-- The stages to terminate after a fail-fast, each once. -/
def stagesToTerminate (failureIndex : Nat) (done ownsGroup : List Bool) : List Nat :=
  (List.range done.length).filter fun idx =>
    stageMayOwnLiveGroup idx ownsGroup ||
      (idx != failureIndex && !done.getD idx false)

def hasStagesToTerminate (failureIndex : Nat) (done : List Bool)
    (policy : OwnsGroup) : Bool :=
  !(stagesToTerminate failureIndex done (policy.ownershipOf done.length)).isEmpty

structure PipelineWaitResult (τ : Type) where
  exitCodes : List Int
  failureIndex : Option Nat
  startedAt : List τ
  endedAt : List (Option τ)
  wallClockStartedAt : List τ

/-- Where the wait stands: suspended in `asyncio.wait`, between two completions
of a batch, suspended in the termination of the other stages, or over. -/
inductive Phase (τ : Type)
  | waiting
  | processing (batch : List Nat)
  | terminating (batch : List Nat)
  | returned (result : PipelineWaitResult τ)
  | raised

/-- A request to terminate the other stages, with the ones it selected. -/
structure Termination where
  failureIndex : Nat
  targets : List Nat
  deriving DecidableEq

/-- What the wait has done, which it does not keep itself. -/
structure History where
  batches : List (List Nat)
  processed : List Nat
  terminations : List Termination

/-- The run of `_wait_for_pipeline`.  `results` are the results of the wait tasks
that are done. -/
structure WaitRun (τ : Type) where
  stages : Nat
  policy : OwnsGroup
  results : Nat → Option Int
  state : PipelineWaitState τ
  pending : List Nat
  phase : Phase τ
  history : History

namespace WaitRun

def done (run : WaitRun τ) (idx : Nat) : Bool := (run.results idx).isSome

def result (run : WaitRun τ) : PipelineWaitResult τ :=
  { exitCodes := run.state.exitCodes.map fun code => code.getD (-1)
    failureIndex := run.state.failureIndex
    startedAt := run.state.startedAt
    endedAt := run.state.endedAt
    wallClockStartedAt := run.state.wallClockStartedAt }

/-- Go on with the rest of a batch; after it, wait for the next or return. -/
def proceed (run : WaitRun τ) : List Nat → WaitRun τ
  | idx :: batch => { run with phase := .processing (idx :: batch) }
  | [] =>
      if run.pending.isEmpty then { run with phase := .returned run.result }
      else { run with phase := .waiting }

theorem proceed_cons (run : WaitRun τ) (idx : Nat) (batch : List Nat) :
    run.proceed (idx :: batch) = { run with phase := .processing (idx :: batch) } := rfl

theorem proceed_nil_of_nil {run : WaitRun τ} (pending : run.pending = []) :
    run.proceed [] = { run with phase := .returned run.result } := by
  simp [proceed, pending]

theorem proceed_nil_of_ne {run : WaitRun τ} (pending : run.pending ≠ []) :
    run.proceed [] = { run with phase := .waiting } := by
  simp [proceed, pending]

def start (stages : Nat) (policy : OwnsGroup) (startedAt wallClockStartedAt : List τ) :
    WaitRun τ :=
  proceed
    { stages
      policy
      results := fun _ => none
      state := .fromProcesses stages startedAt wallClockStartedAt
      pending := List.range stages
      phase := .waiting
      history := ⟨[], [], []⟩ }
    []

/-- A wait task finishes.  It can only while the wait is suspended. -/
def finish (run : WaitRun τ) (idx : Nat) (code : Int) : Option (WaitRun τ) :=
  if idx < run.stages ∧ run.results idx = none then
    let results := Function.update run.results idx (some code)
    match run.phase with
    | .waiting | .terminating _ => some { run with results }
    | .processing _ | .returned _ | .raised => none
  else none

/-- `asyncio.wait` returns the set of the tasks that are done, in whatever order
the set has; the loop takes them by stage index. -/
def wake (run : WaitRun τ) (completed : List Nat) : Option (WaitRun τ) :=
  match run.phase with
  | .waiting =>
      if completed ≠ [] ∧ completed.Perm (run.pending.filter run.done) then
        let batch := completed.insertionSort (· ≤ ·)
        some
          { run with
            pending := run.pending.filter fun idx => !run.done idx
            phase := .processing batch
            history := { run.history with batches := run.history.batches ++ [batch] } }
      else none
  | _ => none

/-- `_process_completed_task` up to its first suspension.  A first failure is
reported before anything is terminated; when the report raises, nothing is. -/
def processCompletedTask (run : WaitRun τ) (idx : Nat) (exitCode : Int)
    (endedAt : τ) (reported : Bool) (rest : List Nat) : WaitRun τ :=
  let hadFailure := run.state.failureIndex.isSome
  let state := (run.state.recordCompletion idx exitCode endedAt).1
  let latchedFirstFailure := !hadFailure && state.failureIndex == some idx
  let done := (List.range run.stages).map run.done
  let run :=
    { run with
      state
      history := { run.history with processed := run.history.processed ++ [idx] } }
  if latchedFirstFailure && !reported then { run with phase := .raised }
  else if state.shouldTerminateOthers idx &&
      hasStagesToTerminate idx done run.policy then
    let targets := stagesToTerminate idx done (run.policy.ownershipOf run.stages)
    { run with
      phase := .terminating rest
      history :=
        { run.history with
          terminations := run.history.terminations ++ [⟨idx, targets⟩] } }
  else run.proceed rest

def process (run : WaitRun τ) (endedAt : τ) (reported : Bool) : Option (WaitRun τ) :=
  match run.phase with
  | .processing (idx :: rest) =>
      (run.results idx).map fun exitCode =>
        run.processCompletedTask idx exitCode endedAt reported rest
  | _ => none

/-- The termination of the other stages is over. -/
def terminated (run : WaitRun τ) : Option (WaitRun τ) :=
  match run.phase with
  | .terminating rest => some (run.proceed rest)
  | _ => none

/-- A cancellation, a wait task that failed, or a hook that raised. -/
def raise (run : WaitRun τ) : Option (WaitRun τ) :=
  match run.phase with
  | .returned _ | .raised => none
  | .waiting | .processing _ | .terminating _ => some { run with phase := .raised }

end WaitRun

inductive Event (τ : Type)
  | finish (idx : Nat) (code : Int)
  | wake (completed : List Nat)
  | process (endedAt : τ) (reported : Bool)
  | terminated
  | raise

def next (run : WaitRun τ) : Event τ → Option (WaitRun τ)
  | .finish idx code => run.finish idx code
  | .wake completed => run.wake completed
  | .process endedAt reported => run.process endedAt reported
  | .terminated => run.terminated
  | .raise => run.raise

/-- A pipeline as `_spawn_pipeline_stages` starts it: one policy for the run, and
its flag recorded once for each stage. -/
structure Spawned (τ : Type) where
  stages : Nat
  ownsGroup : Bool
  startedAt : List τ
  wallClockStartedAt : List τ

def Spawned.policy (spawned : Spawned τ) : OwnsGroup :=
  .each (List.replicate spawned.stages spawned.ownsGroup)

def system (spawned : Spawned τ) : Transition.System (WaitRun τ) (Event τ) :=
  ⟨.start spawned.stages spawned.policy spawned.startedAt spawned.wallClockStartedAt,
    next⟩

end Cuprum.Pipeline
