import Cuprum.StageStreams.Readers

namespace Cuprum.StageStreams

open Cuprum.Capture (Payload)

variable {Task Handle Error : Type}

structure PipelineRunConfig where
  captureStdout : Option CapturePolicy
  captureStderr : Option CapturePolicy
  echoStdout : Bool
  echoStderr : Bool
  idle : Bool
  onLine : Bool
  captureBytes : Bool

def PipelineRunConfig.consumesStdout (self : PipelineRunConfig) : Bool :=
  self.captureStdout.isSome || self.echoStdout || self.idle || self.onLine

def PipelineRunConfig.consumesStderr (self : PipelineRunConfig) : Bool :=
  self.captureStderr.isSome || self.echoStderr || self.idle || self.onLine

/-- The tasks one stage is given: a reader for its stderr, and one for its stdout. -/
def createStageCaptureTasks (config : PipelineRunConfig) (isLastStage : Bool)
    (readers : Task × Task) : Option Task × Option Task :=
  let stderrTask := if config.consumesStderr then some readers.1 else none
  if !isLastStage then (stderrTask, none)
  else (stderrTask, if config.consumesStdout then some readers.2 else none)

def addStage (config : PipelineRunConfig) (stages : Nat)
    (resources : PipelineSpawnResult Task) (stage : (Task × Task) × Nat) :
    PipelineSpawnResult Task :=
  let tasks := createStageCaptureTasks config (stage.2 = stages - 1) stage.1
  { stderrTasks := resources.stderrTasks ++ [tasks.1]
    stdoutTask := tasks.2.or resources.stdoutTask }

/-- Each stage with the readers it would be given. -/
def spawnPipeline (config : PipelineRunConfig) (stages : List (Task × Task)) :
    PipelineSpawnResult Task :=
  stages.zipIdx.foldl (addStage config stages.length) ⟨[], none⟩

def drainContext (config : PipelineRunConfig) (pid : Option Int)
    (observation : Option (Option Int → Nat → Option (Raised Error))) : DrainContext Error where
  captures := (config.captureStdout, config.captureStderr)
  pid := pid
  observation := observation
  captureBytes := config.captureBytes

/-- What a stage's result says of one of its streams. -/
def streamParts (drain : Option (CapturedDrain Handle)) :
    Option Payload × Option CapturedStream :=
  (drain.bind CapturedDrain.payload, drain.bind CapturedDrain.capture)

theorem stderrTasks_foldl (config : PipelineRunConfig) (count : Nat)
    (stages : List ((Task × Task) × Nat)) (resources : PipelineSpawnResult Task) :
    (stages.foldl (addStage config count) resources).stderrTasks =
      resources.stderrTasks ++ stages.map fun stage =>
        if config.consumesStderr then some stage.1.1 else none := by
  induction stages generalizing resources with
  | nil => exact (List.append_nil _).symm
  | cons stage stages induction =>
      rw [List.foldl_cons, induction, List.map_cons, List.append_cons]
      congr 2
      unfold addStage createStageCaptureTasks
      cases decide (stage.2 = count - 1) <;> rfl

theorem stderrTasks_spawn (config : PipelineRunConfig) (stages : List (Task × Task)) :
    (spawnPipeline config stages).stderrTasks =
      stages.map fun stage => if config.consumesStderr then some stage.1 else none := by
  rw [spawnPipeline, stderrTasks_foldl, List.nil_append]
  conv_rhs => rw [← List.zipIdx_map_fst 0 stages, List.map_map]
  rfl

/-- No stage but the last is given a reader for its stdout. -/
theorem stdoutTask_foldl (config : PipelineRunConfig) {count : Nat}
    {stages : List ((Task × Task) × Nat)} (inner : ∀ stage ∈ stages, stage.2 ≠ count - 1)
    (resources : PipelineSpawnResult Task) :
    (stages.foldl (addStage config count) resources).stdoutTask = resources.stdoutTask := by
  induction stages generalizing resources with
  | nil => rfl
  | cons stage stages induction =>
      obtain ⟨first, others⟩ := List.forall_mem_cons.mp inner
      rw [List.foldl_cons, induction others]
      simp [addStage, createStageCaptureTasks, first]

theorem stdoutTask_spawn (config : PipelineRunConfig) (stages : List (Task × Task))
    (last : Task × Task) :
    (spawnPipeline config (stages ++ [last])).stdoutTask =
      if config.consumesStdout then some last.2 else none := by
  have inner : ∀ stage ∈ stages.zipIdx, stage.2 ≠ (stages ++ [last]).length - 1 := by
    intro stage member
    have below : stage.2 < stages.length := (List.mem_zipIdx' member).1
    rw [List.length_append, List.length_singleton, Nat.add_sub_cancel]
    exact Nat.ne_of_lt below
  rw [spawnPipeline, List.zipIdx_append, List.foldl_append]
  simp only [List.zipIdx_cons, List.zipIdx_nil, List.foldl_cons, List.foldl_nil, addStage,
    stdoutTask_foldl config inner]
  cases consumed : config.consumesStdout <;> simp [createStageCaptureTasks, consumed]

theorem captureStdout_of_unconsumed {config : PipelineRunConfig}
    (unconsumed : config.consumesStdout = false) : config.captureStdout = none := by
  simp only [PipelineRunConfig.consumesStdout, Bool.or_eq_false_iff] at unconsumed
  exact Option.isSome_eq_false_iff.mp unconsumed.1.1.1 |> Option.isNone_iff_eq_none.mp

theorem captureStderr_of_unconsumed {config : PipelineRunConfig}
    (unconsumed : config.consumesStderr = false) : config.captureStderr = none := by
  simp only [PipelineRunConfig.consumesStderr, Bool.or_eq_false_iff] at unconsumed
  exact Option.isSome_eq_false_iff.mp unconsumed.1.1.1 |> Option.isNone_iff_eq_none.mp

end Cuprum.StageStreams
