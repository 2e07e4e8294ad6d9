import Cuprum.Transition.System
import Mathlib.Logic.Function.Basic

namespace Cuprum.Wait4

/-- How a child ended, as its wait status encodes it. -/
inductive WaitStatus
  | exited (code : Nat)
  | signaled (signal : Nat)
  deriving DecidableEq

def waitstatusToExitcode : WaitStatus → Int
  | .exited code => code
  | .signaled signal => -signal

/-- The resource record of `wait4`, processor times in microseconds. -/
structure Wait4Usage where
  ruMaxrss : Int
  ruUtime : Int
  ruStime : Int
  deriving DecidableEq

structure ChildResourceUsage where
  maxRssBytes : Option Int
  userCpu : Int
  systemCpu : Int
  deriving DecidableEq

def resourceUsageFromWait4 (linux : Bool) (usage : Wait4Usage) : ChildResourceUsage :=
  { maxRssBytes := some (max 0 (if linux then usage.ruMaxrss * 1024 else usage.ruMaxrss))
    userCpu := max 0 usage.ruUtime
    systemCpu := max 0 usage.ruStime }

/-- The child as the kernel keeps it.  Once its status is collected its number
may name another process. -/
inductive Child
  | running
  | zombie (status : WaitStatus) (usage : Wait4Usage)
  | collected (status : WaitStatus) (usage : Wait4Usage)
  deriving DecidableEq

def Child.isCollected : Child → Bool
  | collected .. => true
  | _ => false

def Child.isZombie : Child → Bool
  | zombie .. => true
  | _ => false

/-- What `wait4` with `WNOHANG` answers for a child. -/
inductive Wait4Reply
  | nothing
  | noChild
  | status (pid : Nat) (status : WaitStatus) (usage : Wait4Usage)
  deriving DecidableEq

structure Config where
  pid : Nat
  /-- Whether the platform can observe an exit without collecting it. -/
  nonReapingProbe : Bool
  linux : Bool

def wait4 (config : Config) : Child → Wait4Reply
  | .running => .nothing
  | .zombie status usage => .status config.pid status usage
  | .collected .. => .noChild

def Child.collect : Child → Child
  | zombie status usage => collected status usage
  | child => child

/-- The assignment of `_publish` that comes next. -/
inductive Assignment
  | returncode
  | popenReturncode
  | resourceUsage
  deriving DecidableEq

/-- How a `send_signal` call ends. -/
inductive Delivery
  | delivered
  | denied
  | refused
  | invariantError
  deriving DecidableEq

inductive SenderStage
  | idle
  | entering (signal : Nat)
  | guarding (signal : Nat)
  | asking (signal : Nat)
  | publishing (next : Assignment) (status : WaitStatus) (usage : Wait4Usage)
  | killing (signal : Nat)
  | leaving (ending : Delivery)
  | ended (ending : Delivery)
  deriving DecidableEq

/-- How the reaper leaves the lock: to poll again, with the exit code, or by an
error. -/
inductive Reaping
  | again
  | reaped (code : Int)
  | childProcessError
  | invariantError
  deriving DecidableEq

inductive ReaperStage
  | absent
  | observing
  | ready
  | collecting
  | polling
  | rechecking
  | attempting
  | publishing (next : Assignment) (status : WaitStatus) (usage : Wait4Usage)
  | leaving (ending : Reaping)
  | ended (ending : Reaping)
  deriving DecidableEq

def SenderStage.holdsLock : SenderStage → Bool
  | guarding _ | asking _ | publishing .. | killing _ | leaving _ => true
  | idle | entering _ | ended _ => false

def ReaperStage.holdsLock : ReaperStage → Bool
  | collecting | rechecking | attempting | publishing .. | leaving _ => true
  | absent | observing | ready | polling | ended _ => false

inductive Thread
  | reaper
  | sender (call : Nat)
  deriving DecidableEq

structure Kill where
  call : Nat
  signal : Nat
  child : Child
  deriving DecidableEq

/-- What a guard decided, with what held at that moment. -/
structure Decision where
  call : Nat
  refused : Bool
  collected : Bool
  published : Bool
  deriving DecidableEq

/-- What a reader without the lock saw of the two properties, and whether the
second assignment of a publication was still to come. -/
structure Observation where
  returncode : Option Int
  resourceUsage : Option ChildResourceUsage
  midway : Bool
  deriving DecidableEq

/-- The kernel calls made for the child and what was seen of it, which the
process object does not keep. -/
structure History where
  kills : List Kill
  attempts : List Child
  decisions : List Decision
  observations : List Observation
  deriving DecidableEq

structure State where
  child : Child
  lock : Option Thread
  returncode : Option Int
  popenReturncode : Option Int
  resourceUsage : Option ChildResourceUsage
  reaper : ReaperStage
  senders : Nat → SenderStage
  history : History

namespace State

def initial : State :=
  { child := .running
    lock := none
    returncode := none
    popenReturncode := none
    resourceUsage := none
    reaper := .absent
    senders := fun _ => .idle
    history := ⟨[], [], [], []⟩ }

def setReaper (state : State) (stage : ReaperStage) : State :=
  { state with reaper := stage }

def setSender (state : State) (call : Nat) (stage : SenderStage) : State :=
  { state with senders := Function.update state.senders call stage }

def acquire (state : State) (thread : Thread) : Option State :=
  match state.lock with
  | none => some { state with lock := some thread }
  | some _ => none

def release (state : State) : State := { state with lock := none }

def attempt (state : State) : State :=
  { state with
    history := { state.history with attempts := state.history.attempts ++ [state.child] } }

/-- Call `wait4` for the child: what it answers, and the child afterwards. -/
def wait4 (config : Config) (state : State) : Wait4Reply × State :=
  (Wait4.wait4 config state.child, { state.attempt with child := state.child.collect })

theorem wait4_of_running {state : State} (config : Config)
    (running : state.child = .running) :
    state.wait4 config = (.nothing, state.attempt) := by
  obtain ⟨child, lock, returncode, popenReturncode, resourceUsage, reaper, senders,
    history⟩ := state
  obtain rfl : child = .running := running
  rfl

theorem wait4_of_zombie {state : State} {status : WaitStatus} {usage : Wait4Usage}
    (config : Config) (zombie : state.child = .zombie status usage) :
    state.wait4 config =
      (.status config.pid status usage,
        { state.attempt with child := .collected status usage }) := by
  simp only [wait4, Wait4.wait4, zombie, Child.collect]

def decide (state : State) (call : Nat) (refused : Bool) : State :=
  { state with
    history :=
      { state.history with
        decisions := state.history.decisions ++
          [Decision.mk call refused state.child.isCollected state.returncode.isSome] } }

def refuse (state : State) (call : Nat) : State :=
  (state.decide call true).setSender call (.leaving .refused)

def clear (state : State) (call signal : Nat) : State :=
  (state.decide call false).setSender call (.killing signal)

/-- One assignment of `_publish`, and the one after it. -/
def assign (config : Config) (state : State) (status : WaitStatus)
    (usage : Wait4Usage) : Assignment → State × Option Assignment
  | .returncode =>
      ({ state with returncode := some (waitstatusToExitcode status) },
        some .popenReturncode)
  | .popenReturncode =>
      ({ state with popenReturncode := some (waitstatusToExitcode status) },
        some .resourceUsage)
  | .resourceUsage =>
      ({ state with resourceUsage := some (resourceUsageFromWait4 config.linux usage) },
        none)

/-- `_delivery_is_refused`, once no published code was found. -/
def ask (config : Config) (state : State) (call signal : Nat) : State :=
  if config.nonReapingProbe then
    if state.child.isCollected then state.refuse call else state.clear call signal
  else
    let (reply, state) := state.wait4 config
    match reply with
    | .nothing => state.clear call signal
    | .noChild => state.refuse call
    | .status pid status usage =>
        if pid = config.pid then
          state.setSender call (.publishing .returncode status usage)
        else state.setSender call (.leaving .invariantError)

/-- The next atomic step of a `send_signal` call, its kill apart. -/
def deliver (config : Config) (state : State) (call : Nat) : Option State :=
  match state.senders call with
  | .entering signal =>
      (state.acquire (.sender call)).map (·.setSender call (.guarding signal))
  | .guarding signal =>
      if state.returncode.isSome then some (state.refuse call)
      else some (state.setSender call (.asking signal))
  | .asking signal => some (state.ask config call signal)
  | .publishing next status usage =>
      match state.assign config status usage next with
      | (state, some next) =>
          some (state.setSender call (.publishing next status usage))
      | (state, none) => some (state.refuse call)
  | .leaving ending => some (state.release.setSender call (.ended ending))
  | .idle | .killing _ | .ended _ => none

/-- `os.kill`, under the lock; the kernel may deny the permission. -/
def kill (state : State) (call : Nat) (permitted : Bool) : Option State :=
  match state.senders call with
  | .killing signal =>
      some
        ({ state with
          history :=
            { state.history with
              kills := state.history.kills ++ [Kill.mk call signal state.child] } }.setSender
          call (.leaving (if permitted then .delivered else .denied)))
  | _ => none

/-- What the reaper does with what `wait4` answered under the lock. -/
def collected (config : Config) (state : State) : Wait4Reply → State
  | .nothing => state.setReaper (.leaving .again)
  | .noChild => state.setReaper (.leaving .childProcessError)
  | .status pid status usage =>
      if pid = config.pid then state.setReaper (.publishing .returncode status usage)
      else state.setReaper (.leaving .invariantError)

/-- The next atomic step of the reaper thread.  Waiting for the child to become
waitable, it can go on only when the child has ended. -/
def reap (config : Config) (state : State) : Option State :=
  match state.reaper with
  | .absent => some (state.setReaper .observing)
  | .observing =>
      if config.nonReapingProbe then
        match state.child with
        | .running => none
        | .zombie .. => some (state.setReaper .ready)
        | .collected .. => some (state.setReaper .polling)
      else some (state.setReaper .polling)
  | .ready => (state.acquire .reaper).map (·.setReaper .collecting)
  | .collecting =>
      match state.child with
      | .running => none
      | _ =>
          let (reply, state) := state.wait4 config
          some (state.collected config reply)
  | .polling => (state.acquire .reaper).map (·.setReaper .rechecking)
  | .rechecking =>
      match state.returncode with
      | some code => some (state.setReaper (.leaving (.reaped code)))
      | none => some (state.setReaper .attempting)
  | .attempting =>
      let (reply, state) := state.wait4 config
      some (state.collected config reply)
  | .publishing next status usage =>
      match state.assign config status usage next with
      | (state, some next) => some (state.setReaper (.publishing next status usage))
      | (state, none) =>
          some (state.setReaper (.leaving (.reaped (waitstatusToExitcode status))))
  | .leaving .again => some (state.release.setReaper .polling)
  | .leaving ending => some (state.release.setReaper (.ended ending))
  | .ended _ => none

end State

def SenderStage.midway : SenderStage → Bool
  | publishing .popenReturncode _ _ => true
  | publishing .resourceUsage _ _ => true
  | _ => false

def ReaperStage.midway : ReaperStage → Bool
  | publishing .popenReturncode _ _ => true
  | publishing .resourceUsage _ _ => true
  | _ => false

namespace State

/-- Whether the holder of the lock stands between the assignment of the return
code and that of the resource usage. -/
def midway (state : State) : Bool :=
  match state.lock with
  | none => false
  | some .reaper => state.reaper.midway
  | some (.sender call) => (state.senders call).midway

/-- A reader takes both properties without the lock. -/
def observe (state : State) : State :=
  { state with
    history :=
      { state.history with
        observations := state.history.observations ++
          [Observation.mk state.returncode state.resourceUsage state.midway] } }

end State

inductive Event
  | exit (status : WaitStatus) (usage : Wait4Usage)
  | send (call signal : Nat)
  | deliver (call : Nat)
  | kill (call : Nat) (permitted : Bool)
  | reap
  | observe
  deriving DecidableEq

def next (config : Config) (state : State) : Event → Option State
  | .exit status usage =>
      match state.child with
      | .running => some { state with child := .zombie status usage }
      | _ => none
  | .send call signal =>
      match state.senders call with
      | .idle => some (state.setSender call (.entering signal))
      | _ => none
  | .deliver call => state.deliver config call
  | .kill call permitted => state.kill call permitted
  | .reap => state.reap config
  | .observe => some state.observe

def system (config : Config) : Transition.System State Event :=
  ⟨.initial, next config⟩

end Cuprum.Wait4
