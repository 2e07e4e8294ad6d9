import Cuprum.Capture.Accumulators
import Cuprum.Compaction.Slots
import Cuprum.Compaction.Table

namespace Cuprum.StageStreams

open Cuprum.Capture (CaptureStreamName Payload)
open Cuprum.Compaction

inductive CapturePolicyKind
  | full
  | bounded
  | fileBacked

inductive CapturePolicy
  | full
  | bounded (maxBytes : Nat)
  | fileBacked (spillThresholdBytes : Option Nat) (keepFile : Bool)

def policyKind : CapturePolicy → CapturePolicyKind
  | .full => .full
  | .bounded _ => .bounded
  | .fileBacked _ _ => .fileBacked

inductive Storage
  | memory
  | file

structure CapturedStream where
  stream : CaptureStreamName
  policy : CapturePolicyKind
  totalBytes : Nat
  droppedBytes : Nat := 0
  storage : Storage := .memory
  path : Option String := none
  owned : Bool := false
  storageFailed : Bool := false

structure CapturedDrain (Handle : Type) where
  payload : Option Payload := none
  capture : Option CapturedStream := none
  handle : Option Handle := none

/-- What is raised: an error of the `Exception` family, one that is not of it, or what the
code under study raises itself. -/
inductive Raised (Error : Type)
  | cancelledError
  | exception (error : Error)
  | exiting (error : Error)
  | valueError
  | indexError

variable {Task Handle Error : Type}

/-- How a reader's task ends. -/
inductive Outcome (Handle Error : Type)
  | returned (drain : CapturedDrain Handle)
  | raised (error : Raised Error)

/-- The readers of one run. A task that has ended stays as it is; one that is cancelled
answers by what it had captured or by an error, and may know that its bytes are to be
discarded. -/
structure Readers (Task Handle Error : Type) where
  observed : Task → Option (Outcome Handle Error)
  graced : Task → Option (Outcome Handle Error)
  answer : Bool → Task → Outcome Handle Error
  stays : ∀ task outcome, observed task = some outcome → graced task = some outcome

/-- What a task has come to once it is awaited after the cancellation. -/
def Readers.ended (self : Readers Task Handle Error) (discarding : Bool) (task : Task) :
    Outcome Handle Error :=
  (self.graced task).getD (self.answer discarding task)

/-- `asyncio.gather(…, return_exceptions=True)`. -/
def gather (tasks : List Task) (readers : Readers Task Handle Error) (discarding : Bool) :
    List (Outcome Handle Error) :=
  tasks.map (readers.ended discarding)

/-- `zip(…, strict=True)`. -/
def zipStrict {α β : Type} (first : List α) (second : List β) :
    Except (Raised Error) (List (α × β)) :=
  if first.length = second.length then .ok (first.zip second) else .error .valueError

section Observing

variable [DecidableEq Task]

def storeObserved (byTask : Task → Option (Outcome Handle Error))
    (payloads : List (Option (CapturedDrain Handle))) (slot : Nat × Task) :
    Except (Raised Error) (List (Option (CapturedDrain Handle))) :=
  match byTask slot.2 with
  | some (.raised error) => .error error
  | some (.returned drain) => .ok (payloads.set slot.1 (some drain))
  | none => .ok (payloads.set slot.1 none)

/-- `done` is what the wait for the tasks returns as such, in any order. -/
def boundedPayloads (tasks : List (Option Task)) (done : List Task)
    (readers : Readers Task Handle Error) :
    Except (Raised Error) (List (Option (CapturedDrain Handle)) × Bool) :=
  let indexed := held 0 tasks
  if indexed.isEmpty then .ok (List.replicate tasks.length none, true)
  else do
    let byTask := dict (← zipStrict done (gather done readers false))
    let payloads ← indexed.foldlM (storeObserved byTask) (List.replicate tasks.length none)
    pure (payloads, indexed.all fun slot => decide (slot.2 ∈ done))

end Observing

/-! Settlement. -/

structure DrainContext (Error : Type) where
  captures : Option CapturePolicy × Option CapturePolicy
  pid : Option Int := none
  /-- What the hooks raise when they are told of readers that are still pending. -/
  observation : Option (Option Int → Nat → Option (Raised Error)) := none
  discardOnCancel : Bool := false
  captureBytes : Bool := false

def DrainContext.capturing (self : DrainContext Error) : Bool :=
  self.captures.1.isSome || self.captures.2.isSome

/-- `captures[stream]`. -/
def DrainContext.capture (self : DrainContext Error) : CaptureStreamName → Option CapturePolicy
  | .stdout => self.captures.1
  | .stderr => self.captures.2

def emptyCaptureFor (policy : Option CapturePolicy) (stream : CaptureStreamName)
    (captureBytes : Bool) : CapturedDrain Handle :=
  match policy with
  | none => {}
  | some policy => {
      payload := some (if captureBytes then .bytes [] else .text [])
      capture := some { stream, policy := policyKind policy, totalBytes := 0 } }

def decodeConsumerResult (result : Option (Outcome Handle Error)) (stream : CaptureStreamName)
    (context : DrainContext Error) : CapturedDrain Handle :=
  match result with
  | some (.returned drain) => drain
  | some (.raised _) | none =>
      emptyCaptureFor (context.capture stream) stream context.captureBytes

/-- Neither an exception nor a cancellation that a hook raises goes on. -/
def safeEmit : Option (Raised Error) → Except (Raised Error) Unit
  | some (.exiting error) => .error (.exiting error)
  | _ => .ok ()

/-- `debug` is what the debug record of the drain's logger raises. -/
def reportEofGraceExpiry (pendingReaders : Nat) (context : DrainContext Error)
    (debug : Nat → Option (Raised Error)) : Except (Raised Error) Unit :=
  if pendingReaders = 0 then .ok ()
  else match debug pendingReaders with
    | some error => .error error
    | none => match context.observation with
        | none => .ok ()
        | some emit => safeEmit (emit context.pid pendingReaders)

/-- `asyncio.wait`, which rejects an empty set. -/
def awaitAny (consumers : List Task) : Except (Raised Error) Unit :=
  if consumers.isEmpty then .error .valueError else .ok ()

def owesEofGrace (consumers : List Task) (context : DrainContext Error) (expired : Bool) : Bool :=
  expired && context.capturing && !consumers.isEmpty

def awaitPipelineEofGrace (consumers : List Task) (context : DrainContext Error)
    (readers : Readers Task Handle Error) (debug : Nat → Option (Raised Error)) :
    Except (Raised Error) Unit := do
  awaitAny consumers
  reportEofGraceExpiry (consumers.countP fun task => (readers.graced task).isNone) context debug

/-- Those that have not ended are cancelled, then all are awaited. -/
def settleConsumers (consumers : List Task) (discardOnCancel : Bool)
    (readers : Readers Task Handle Error) : List (Outcome Handle Error) :=
  gather consumers readers discardOnCancel

/-- The last slot is that of the final stage's stdout, the others are of stderr. -/
def slotStream (index : Nat) (tasks : List (Option Task)) : CaptureStreamName :=
  if index = tasks.length - 1 then .stdout else .stderr

structure SlotContext (Task Handle Error : Type) where
  payloads : List (Option (CapturedDrain Handle))
  tasks : List (Option Task)
  byTask : Task → Option (Outcome Handle Error)
  context : DrainContext Error

def slotPayload (index : Nat) (task : Option Task) (slots : SlotContext Task Handle Error) :
    Except (Raised Error) (Option (CapturedDrain Handle)) :=
  match slots.payloads[index]? with
  | none => .error .indexError
  | some observed => match task, observed with
      | none, _ => .ok observed
      | some _, some drain => .ok (some drain)
      | some task, none => .ok (some (decodeConsumerResult (slots.byTask task)
          (slotStream index slots.tasks) slots.context))

def pipelinePayloads (slots : SlotContext Task Handle Error) :
    Except (Raised Error) (List (Option (CapturedDrain Handle)) × Option (CapturedDrain Handle)) := do
  let decoded ← slots.tasks.zipIdx.mapM fun slot => slotPayload slot.2 slot.1 slots
  match decoded.getLast? with
  | none => throw .indexError
  | some last => pure (decoded.dropLast, last)

def settlePipelineOutputs [DecidableEq Task] (payloads : List (Option (CapturedDrain Handle)))
    (tasks : List (Option Task)) (context : DrainContext Error) (expired : Bool)
    (readers : Readers Task Handle Error) (debug : Nat → Option (Raised Error)) :
    Except (Raised Error) (List (Option (CapturedDrain Handle)) × Option (CapturedDrain Handle)) := do
  let consumers := tasks.reduceOption
  if owesEofGrace consumers context expired then
    awaitPipelineEofGrace consumers context readers debug
  let settled := settleConsumers consumers
    (if context.capturing then false else context.discardOnCancel) readers
  let byTask := dict (← zipStrict consumers settled)
  pipelinePayloads { payloads, tasks, byTask, context }

/-! The two routes to settlement, and the stages' shares of its result. -/

structure PipelineSpawnResult (Task : Type) where
  stderrTasks : List (Option Task)
  stdoutTask : Option Task

def pipelineOutputTasks (spawn : PipelineSpawnResult Task) : List (Option Task) :=
  spawn.stderrTasks ++ [spawn.stdoutTask]

structure PipelineOutputGather (Task Handle : Type) where
  tasks : List (Option Task)
  drains : List (Option (CapturedDrain Handle))
  finished : Bool

def gatherPipelineOutputs [DecidableEq Task] (spawn : PipelineSpawnResult Task)
    (done : List Task) (readers : Readers Task Handle Error) :
    Except (Raised Error) (PipelineOutputGather Task Handle) := do
  let tasks := pipelineOutputTasks spawn
  let (drains, finished) ← boundedPayloads tasks done readers
  pure { tasks, drains, finished }

def unobservedPipelineOutputs (spawn : PipelineSpawnResult Task) :
    PipelineOutputGather Task Handle :=
  let tasks := pipelineOutputTasks spawn
  { tasks, drains := List.replicate tasks.length none, finished := false }

def settleGatheredOutputs [DecidableEq Task] (gathered : PipelineOutputGather Task Handle)
    (context : DrainContext Error) (readers : Readers Task Handle Error)
    (debug : Nat → Option (Raised Error)) :
    Except (Raised Error) (List (Option (CapturedDrain Handle)) × Option (CapturedDrain Handle)) :=
  settlePipelineOutputs gathered.drains gathered.tasks context (!gathered.finished) readers debug

/-- The streams one stage's result is built of: stdout, which only the last stage has, and
stderr. -/
def stageDrains (stages idx : Nat) (stderrByStage : List (Option (CapturedDrain Handle)))
    (finalStdout : Option (CapturedDrain Handle)) :
    Option (Option (CapturedDrain Handle) × Option (CapturedDrain Handle)) :=
  (stderrByStage[idx]?).map fun stderr =>
    (if idx = stages - 1 then finalStdout else none, stderr)

end Cuprum.StageStreams
