import Mathlib.Logic.Function.Basic
import Cuprum.Transition.System

namespace Cuprum.Handle

/-- What a coroutine raises.  `asyncio.CancelledError` stands apart because the
code asks for it apart. -/
inductive Raised (ε : Type)
  | cancelled
  | error (error : ε)
  deriving DecidableEq

/-- The error a failed run is finalized with: the one raised, or the expiry
built from a caller's deadline and the drained outcome. -/
inductive RunError (δ ε ρ : Type)
  | raised (error : Raised ε)
  | timeoutExpired (deadline : δ) (result : ρ)
  deriving DecidableEq

inductive Finalization (δ ε ρ : Type)
  | success (result : ρ)
  | failure (result : Option ρ) (error : RunError δ ε ρ)
  deriving DecidableEq

/-- The task that drives `settle_and_record`. -/
inductive SettlementTask (δ ε ρ : Type)
  | unstarted
  | driving
  | finalizing (how : Finalization δ ε ρ) (ending : Except (Raised ε) ρ)
  | finished (ending : Except (Raised ε) ρ)

/-- The child as the kernel and its reaper know it.  Between collecting the
status and publishing it, the reaper's thread leaves neither to be read. -/
inductive Child
  | running
  | exited (code : Int)
  | collected (code : Int)
  | published (code : Int)
  deriving DecidableEq

def observedExitCode (nonReapingProbe : Bool) : Child → Option Int
  | .published code => some code
  | .exited code => if nonReapingProbe then some code else none
  | .running | .collected _ => none

/-- What is fixed when the handle is started. -/
structure HandleRun (δ ε η : Type) where
  defaultTimeout : Option δ
  nonReapingProbe : Bool
  afterHooks : List η
  isTimeoutError : ε → Bool

/-- A stop a caller asked for.  Leaving an `async with` block may have the
block's own exception pending. -/
inductive Stopper
  | terminate
  | kill
  | exit (pending : Bool)
  deriving DecidableEq

inductive Operation (δ : Type)
  | wait (timeout : Option δ)
  | stop (stopper : Stopper)
  deriving DecidableEq

/-- How one shielded step ended. -/
inductive StepReport (ε : Type)
  | completed
  | cancelled
  | failed (error : ε)
  deriving DecidableEq

/-- A caller's own cancellation is what the step reports, whatever else the
step ended with, where a failure of the step has not escaped. -/
def StepReport.of {ε : Type} (callerCancelled : Bool)
    (raised : Option (Raised ε)) : StepReport ε :=
  if callerCancelled then .cancelled
  else
    match raised with
    | none => .completed
    | some .cancelled => .cancelled
    | some (.error error) => .failed error

def StepReport.failure {ε : Type} : StepReport ε → Option ε
  | .failed error => some error
  | .completed | .cancelled => none

def arbitrate {ε : Type} [DecidableEq ε] (stop settle : StepReport ε)
    (pending : Bool) : Option (Raised ε) :=
  if stop = .cancelled ∨ settle = .cancelled then some .cancelled
  else if pending then none
  else (stop.failure.or settle.failure).map .error

/-- Who runs `_await_settlement`: a caller itself, under its `asyncio.timeout`
when it has a positive deadline, or the settle step of a stop, a task of its own
that its caller's cancellations do not reach. -/
inductive Watcher (δ ε : Type)
  | direct (deadline : Option δ)
  | settleStep (stopper : Stopper) (stop : StepReport ε) (callerCancelled : Bool)
  deriving DecidableEq

/-- Who runs `_terminate_shielded` or `_kill_shielded`. -/
inductive Stop (δ : Type)
  | expiry (deadline : δ) (settling : Nat)
  | stopStep (stopper : Stopper)
  deriving DecidableEq

inductive Ending (δ ε ρ : Type)
  | returned (result : ρ)
  | left (pending : Bool)
  | raised (error : Raised ε)
  | timeoutExpired (deadline : δ) (result : ρ)
  deriving DecidableEq

/-- The await a caller is suspended at.  `entering`, `recording`, `expiring` and
`reaped` are at the settlement's lock, whose sections await nothing and so are
one step each; `stopQueued` is at the run's stop lock. -/
inductive Phase (δ ε ρ : Type)
  | absent
  | entering (watcher : Watcher δ ε)
  | awaiting (watcher : Watcher δ ε) (settling : Nat)
  | recording (watcher : Watcher δ ε) (awaited : ρ)
  | expiring (deadline : δ)
  | stopQueued (stop : Stop δ) (callerCancelled : Bool)
  | stopping (stop : Stop δ) (callerCancelled : Bool)
  | reaping (deadline : δ) (settling : Nat)
  | reaped (deadline : δ) (result : ρ)
  | done (ending : Ending δ ε ρ)
  deriving DecidableEq

/-- What has happened, which the handle itself does not keep: the deadlines
recorded, with the callers that recorded them, the callers whose positive
deadline expired on an exited child, the callers that began a stop, the recorded
deadlines as the settlement saw them, the hook calls, the finalizations, and the
settlements a cancellation reached. -/
structure History (δ ε ρ η : Type) where
  recorded : List (Nat × δ)
  foundExited : List Nat
  stops : List Nat
  looked : Option (List (Nat × δ))
  hookCalls : List (η × ρ)
  finalizations : List (Finalization δ ε ρ)
  cancelled : List Nat

/-- `_Settlement`, with every settlement task that was ever created, the child
and the run's stop lock. -/
structure Shared (δ ε ρ η : Type) where
  deadline : Option δ
  result : Option ρ
  task : Option Nat
  started : Nat
  settlements : Nat → SettlementTask δ ε ρ
  child : Child
  stopHolder : Option Nat
  history : History δ ε ρ η

structure State (δ ε ρ η : Type) where
  shared : Shared δ ε ρ η
  callers : Nat → Phase δ ε ρ

def State.initial {δ ε ρ η : Type} : State δ ε ρ η where
  shared :=
    { deadline := none
      result := none
      task := none
      started := 0
      settlements := fun _ => .unstarted
      child := .running
      stopHolder := none
      history := ⟨[], [], [], none, [], [], []⟩ }
  callers := fun _ => .absent

variable {δ ε ρ η : Type} [OfNat δ 0] [LE δ] [LT δ] [DecidableLE δ] [DecidableLT δ]
  [DecidableEq ε]

/-- What a coroutine waits for. -/
inductive Awaited
  | lock
  | step
  | task (settlement : Nat)
  | shield (awaited : Awaited)

/-- The settlement a cancelled coroutine takes with it: cancelling a task
cancels what it awaits, unless that stands behind a shield. -/
def Awaited.cancels : Awaited → Option Nat
  | .task settlement => some settlement
  | .lock | .step | .shield _ => none

omit [OfNat δ 0] [LE δ] [LT δ] [DecidableLE δ] [DecidableLT δ] [DecidableEq ε] in
def Phase.awaits : Phase δ ε ρ → Awaited
  | .awaiting (.direct _) settling | .reaping _ settling => .shield (.task settling)
  | .awaiting (.settleStep ..) _ | .entering (.settleStep ..)
  | .recording (.settleStep ..) _ | .stopping .. => .shield .step
  | .stopQueued (.stopStep _) _ => .shield .step
  | _ => .lock

namespace Shared

/-- The settlement task, created when nobody has yet. -/
def ensureTask (shared : Shared δ ε ρ η) : Nat × Shared δ ε ρ η :=
  match shared.task with
  | some settling => (settling, shared)
  | none =>
      (shared.started,
        { shared with
          task := some shared.started
          started := shared.started + 1
          settlements := Function.update shared.settlements shared.started .driving })

def record (shared : Shared δ ε ρ η) (result : ρ) : Shared δ ε ρ η :=
  { shared with result := some result, task := none }

def recordDeadline (shared : Shared δ ε ρ η) (caller : Nat) (deadline : δ) :
    Shared δ ε ρ η :=
  { shared with
    deadline := shared.deadline.or (some deadline)
    history.recorded := shared.history.recorded ++ [(caller, deadline)] }

def noteExited (shared : Shared δ ε ρ η) (caller : Nat) : Shared δ ε ρ η :=
  { shared with history.foundExited := caller :: shared.history.foundExited }

def beginStop (shared : Shared δ ε ρ η) (caller : Nat) : Shared δ ε ρ η :=
  { shared with history.stops := caller :: shared.history.stops }

def acquireStop (shared : Shared δ ε ρ η) (caller : Nat) : Shared δ ε ρ η :=
  { shared.beginStop caller with stopHolder := some caller }

def releaseStop (shared : Shared δ ε ρ η) (caller : Nat) : Shared δ ε ρ η :=
  if shared.stopHolder = some caller then { shared with stopHolder := none }
  else shared

def finalize (shared : Shared δ ε ρ η) (settlement : Nat)
    (how : Finalization δ ε ρ) (ending : Except (Raised ε) ρ) : Shared δ ε ρ η :=
  { shared with
    settlements :=
      Function.update shared.settlements settlement (.finalizing how ending)
    history.finalizations := shared.history.finalizations ++ [how] }

/-- A cancellation that reaches the settlement task ends its wait for the child,
or is raised once the finalization it is shielded for is through. -/
def interrupt (shared : Shared δ ε ρ η) : Option Nat → Shared δ ε ρ η
  | none => shared
  | some settlement =>
      let noted :=
        { shared with history.cancelled := settlement :: shared.history.cancelled }
      match shared.settlements settlement with
      | .driving =>
          noted.finalize settlement (.failure none (.raised .cancelled))
            (.error .cancelled)
      | .finalizing how _ =>
          { noted with
            settlements :=
              Function.update shared.settlements settlement
                (.finalizing how (.error .cancelled)) }
      | .unstarted | .finished _ => noted

end Shared

/-- Leave a stop's two steps: the error they owe the caller is raised, else a
stop reads the outcome once more and an exit returns. -/
def weigh (stopper : Stopper) (stop settle : StepReport ε) : Phase δ ε ρ :=
  match stopper with
  | .exit pending =>
      match arbitrate stop settle pending with
      | some error => .done (.raised error)
      | none => .done (.left pending)
  | .terminate | .kill =>
      match arbitrate stop settle false with
      | some error => .done (.raised error)
      | none => .entering (.direct none)

/-- `_await_settlement` returns `result`. -/
def Watcher.resume (result : ρ) : Watcher δ ε → Phase δ ε ρ
  | .direct _ => .done (.returned result)
  | .settleStep stopper stop callerCancelled =>
      weigh stopper stop (.of callerCancelled none)

/-- `_await_settlement` raises `error`. -/
def Watcher.fail (isTimeoutError : ε → Bool) (error : Raised ε) :
    Watcher δ ε → Phase δ ε ρ
  | .direct none => .done (.raised error)
  | .direct (some deadline) =>
      match error with
      | .cancelled => .done (.raised .cancelled)
      | .error error =>
          if isTimeoutError error then .expiring deadline
          else .done (.raised (.error error))
  | .settleStep stopper stop callerCancelled =>
      weigh stopper stop (.of callerCancelled (some error))

def Watcher.cancel : Watcher δ ε → Option (Watcher δ ε)
  | .direct _ => none
  | .settleStep stopper stop _ => some (.settleStep stopper stop true)

/-- `_Settlement.outcome`, up to its first await. -/
def outcome : Option δ → Phase δ ε ρ
  | none => .entering (.direct none)
  | some deadline =>
      if deadline ≤ 0 then .expiring deadline
      else .entering (.direct (some deadline))

namespace Phase

/-- The deadline whose clock is still running. -/
def clock : Phase δ ε ρ → Option δ
  | .entering (.direct deadline) | .awaiting (.direct deadline) _
  | .recording (.direct deadline) _ => deadline
  | _ => none

/-- Where a cancellation delivered at a caller's await leaves it. -/
def cancel : Phase δ ε ρ → Option (Phase δ ε ρ)
  | .absent | .done _ => none
  | .entering watcher =>
      some (match watcher.cancel with
        | some watcher => .entering watcher
        | none => .done (.raised .cancelled))
  | .awaiting watcher settling =>
      some (match watcher.cancel with
        | some watcher => .awaiting watcher settling
        | none => .done (.raised .cancelled))
  | .recording watcher awaited =>
      some (match watcher.cancel with
        | some watcher => .recording watcher awaited
        | none => .done (.raised .cancelled))
  | .stopQueued (.stopStep stopper) _ => some (.stopQueued (.stopStep stopper) true)
  | .stopping stop _ => some (.stopping stop true)
  | .expiring _ | .stopQueued (.expiry ..) _ | .reaping .. | .reaped .. =>
      some (.done (.raised .cancelled))

end Phase

/-- The stop is through.  A cancellation its shield absorbed is raised by an
expiry, and kept for the settle step's report by a stop. -/
def Stop.finish (callerCancelled : Bool) (raised : Option (Raised ε)) :
    Stop δ → Phase δ ε ρ
  | .expiry deadline settling =>
      if callerCancelled then .done (.raised .cancelled)
      else
        match raised with
        | some error => .done (.raised error)
        | none => .reaping deadline settling
  | .stopStep stopper =>
      .entering (.settleStep stopper (.of callerCancelled raised) false)

/-- What a caller does, or meets, at the await it is suspended at.  The failure of a
step whose shield has absorbed a cancellation escapes its report, unless the caller has
a further cancellation to take. -/
inductive Action (δ ε : Type)
  | call (operation : Operation δ)
  | proceed
  | stopped (raised : Option (Raised ε))
  | stopEscapes (error : ε)
  | settleEscapes
  | clock
  | cancel
  deriving DecidableEq

section Caller

variable (run : HandleRun δ ε η) (caller : Nat)

def defaultDeadline (timeout : Option δ) : Option δ := timeout.or run.defaultTimeout

def begin (shared : Shared δ ε ρ η) : Operation δ → Shared δ ε ρ η × Phase δ ε ρ
  | .wait timeout => (shared, outcome (defaultDeadline run timeout))
  | .stop .kill => (shared.beginStop caller, .stopping (.stopStep .kill) false)
  | .stop stopper => (shared, .stopQueued (.stopStep stopper) false)

/-- Whether a positive deadline expires on a child that has already exited. -/
def exitedFirst (shared : Shared δ ε ρ η) (deadline : δ) : Bool :=
  decide (0 < deadline) && (observedExitCode run.nonReapingProbe shared.child).isSome

/-- The locked section of `_expire`. -/
def expire (shared : Shared δ ε ρ η) (deadline : δ) :
    Shared δ ε ρ η × Phase δ ε ρ :=
  let noted :=
    if exitedFirst run shared deadline then shared.noteExited caller else shared
  match shared.result with
  | some settled => (noted, .done (.returned settled))
  | none =>
      if exitedFirst run shared deadline then
        (noted.ensureTask.2, .entering (.direct none))
      else
        let (settling, stopped) := (noted.recordDeadline caller deadline).ensureTask
        (stopped, .stopQueued (.expiry deadline settling) false)

def proceed (shared : Shared δ ε ρ η) :
    Phase δ ε ρ → Option (Shared δ ε ρ η × Phase δ ε ρ)
  | .absent | .stopping .. | .done _ => none
  | .entering watcher =>
      match shared.result with
      | some settled => some (shared, watcher.resume settled)
      | none =>
          let (settling, shared) := shared.ensureTask
          some (shared, .awaiting watcher settling)
  | .awaiting watcher settling =>
      match shared.settlements settling with
      | .finished (.ok awaited) => some (shared, .recording watcher awaited)
      | .finished (.error error) =>
          some (shared, watcher.fail run.isTimeoutError error)
      | _ => none
  | .recording watcher awaited => some (shared.record awaited, watcher.resume awaited)
  | .expiring deadline => some (expire run caller shared deadline)
  | .stopQueued stop callerCancelled =>
      match shared.stopHolder with
      | some _ => none
      | none => some (shared.acquireStop caller, .stopping stop callerCancelled)
  | .reaping deadline settling =>
      match shared.settlements settling with
      | .finished (.ok result) => some (shared, .reaped deadline result)
      | .finished (.error error) => some (shared, .done (.raised error))
      | _ => none
  | .reaped deadline result =>
      some (shared.record result, .done (.timeoutExpired deadline result))

def act (shared : Shared δ ε ρ η) (phase : Phase δ ε ρ) :
    Action δ ε → Option (Shared δ ε ρ η × Phase δ ε ρ)
  | .call operation =>
      match phase with
      | .absent => some (begin run caller shared operation)
      | _ => none
  | .proceed => proceed run caller shared phase
  | .stopped raised =>
      match phase with
      | .stopping stop callerCancelled =>
          some (shared.releaseStop caller, stop.finish callerCancelled raised)
      | _ => none
  | .stopEscapes error =>
      match phase with
      | .stopping _ true => some (shared.releaseStop caller, .done (.raised (.error error)))
      | _ => none
  | .settleEscapes =>
      match phase with
      | .awaiting (.settleStep _ _ true) settling =>
          match shared.settlements settling with
          | .finished (.error (.error error)) => some (shared, .done (.raised (.error error)))
          | _ => none
      | _ => none
  | .clock =>
      phase.clock.map fun deadline =>
        (shared.interrupt phase.awaits.cancels, .expiring deadline)
  | .cancel =>
      phase.cancel.map fun after => (shared.interrupt phase.awaits.cancels, after)

end Caller

/-- Run the after hooks in order, up to the first that raises. -/
def runHooks (answer : η → Option (Raised ε)) (result : ρ) :
    List η → List (η × ρ) × Option (Raised ε)
  | [] => ([], none)
  | hook :: hooks =>
      match answer hook with
      | some error => ([(hook, result)], some error)
      | none =>
          let (calls, raised) := runHooks answer result hooks
          ((hook, result) :: calls, raised)

/-- What moves without a caller: the child, and the settlement task between its
awaits. -/
inductive Progress (ε ρ η : Type)
  | exit (code : Int)
  | collect
  | publish
  | settled (settlement : Nat) (ending : Except (Raised ε) ρ)
      (answer : η → Option (Raised ε))
  | finalized (settlement : Nat) (raised : Option (Raised ε))

namespace Shared

/-- `settle_and_record` once `_settle_handle_run` has returned, which takes the
child's published code: it looks at the deadline and, when there is none, runs
the after hooks before anything else can move. -/
def conclude (run : HandleRun δ ε η) (shared : Shared δ ε ρ η) (settlement : Nat)
    (result : ρ) (answer : η → Option (Raised ε)) : Shared δ ε ρ η :=
  let looked :=
    { shared with history.looked := some shared.history.recorded }
  match shared.deadline with
  | none =>
      let (calls, raised) := runHooks answer result run.afterHooks
      let hooked :=
        { looked with history.hookCalls := looked.history.hookCalls ++ calls }
      match raised with
      | some error =>
          hooked.finalize settlement (.failure (some result) (.raised error))
            (.error error)
      | none => hooked.finalize settlement (.success result) (.ok result)
  | some deadline =>
      looked.finalize settlement
        (.failure (some result) (.timeoutExpired deadline result)) (.ok result)

def finish (shared : Shared δ ε ρ η) (settlement : Nat)
    (ending : Except (Raised ε) ρ) : Shared δ ε ρ η :=
  { shared with
    settlements := Function.update shared.settlements settlement (.finished ending) }

def advance (run : HandleRun δ ε η) (shared : Shared δ ε ρ η) :
    Progress ε ρ η → Option (Shared δ ε ρ η)
  | .exit code =>
      match shared.child with
      | .running => some { shared with child := .exited code }
      | _ => none
  | .collect =>
      match shared.child with
      | .exited code => some { shared with child := .collected code }
      | _ => none
  | .publish =>
      match shared.child with
      | .exited code | .collected code => some { shared with child := .published code }
      | _ => none
  | .settled settlement ending answer =>
      match shared.settlements settlement, ending with
      | .driving, .error error =>
          some (shared.finalize settlement (.failure none (.raised error)) (.error error))
      | .driving, .ok result =>
          match shared.child with
          | .published _ => some (shared.conclude run settlement result answer)
          | _ => none
      | _, _ => none
  | .finalized settlement raised =>
      match shared.settlements settlement, raised with
      | .finalizing _ _, some error => some (shared.finish settlement (.error error))
      | .finalizing _ (.error error), none =>
          some (shared.finish settlement (.error error))
      | .finalizing _ (.ok result), none =>
          some { shared.finish settlement (.ok result) with result := some result }
      | _, _ => none

end Shared

inductive Event (δ ε ρ η : Type)
  | caller (caller : Nat) (action : Action δ ε)
  | progress (progress : Progress ε ρ η)

def next (run : HandleRun δ ε η) (state : State δ ε ρ η) :
    Event δ ε ρ η → Option (State δ ε ρ η)
  | .caller caller action =>
      (act run caller state.shared (state.callers caller) action).map
        fun (shared, phase) =>
          ⟨shared, Function.update state.callers caller phase⟩
  | .progress progress =>
      (state.shared.advance run progress).map fun shared => ⟨shared, state.callers⟩

/-- One handle, with any number of callers, each of which makes one call. -/
def handle (ρ : Type) (run : HandleRun δ ε η) :
    Transition.System (State δ ε ρ η) (Event δ ε ρ η) where
  initial := .initial
  next := next run

end Cuprum.Handle
