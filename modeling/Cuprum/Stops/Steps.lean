import Mathlib.Logic.Function.Basic
import Cuprum.Teardown.Terminate
import Cuprum.Transition.System

namespace Cuprum.Stops

open Teardown (Process GroupProbe Signal SignalAnswer)
open Transition (System)

variable {Execution Error : Type}

/-- How far the child's end has come: its status waits to be collected once it has
exited, and its return code is published some time after the collection. -/
inductive Child
  | running
  | exited
  | collected
  | published
  deriving DecidableEq, Repr

namespace Child

def isPublished (child : Child) : Bool := child = .published

def wasCollected : Child → Bool
  | .running | .exited => false
  | .collected | .published => true

/-- A status collected but not yet published is seen by no probe. -/
def observedExitCode : Child → Bool
  | .running | .collected => false
  | .exited | .published => true

end Child

/-- Where an escalation stands.  It ends once nothing is left of it to signal. -/
inductive Stage
  | asking
  | grace
  | elapsed
  | forced
  | finished
  deriving DecidableEq, Repr

/-- What an escalation does next.  The answers are those of a group; of a child that is
signalled by itself they are known. -/
inductive Move (Error : Type)
  | probes (group : GroupProbe) (answer : SignalAnswer Error)
  | elapses
  | settles
  deriving Repr

section Escalation

variable (process : Process Execution)

def signalAnswer (child : Child) (answer : SignalAnswer Error) : SignalAnswer Error :=
  match process.target with
  | .group _ => answer
  | .child => if child.wasCollected then .noSuchProcess else .returned

def delivers : SignalAnswer Error → Bool
  | .returned => true
  | .noSuchProcess | .refused _ => false

/-- The target is asked about first, and a signal goes only where members remain. -/
def reaches (child : Child) (group : GroupProbe) (answer : SignalAnswer Error) : Bool :=
  decide (process.settlementOf ⟨child.isPublished, group⟩ = .members) &&
    delivers (signalAnswer process child answer)

/-- The stage an escalation comes to, and what it has sent. -/
def advance (child : Child) : Stage → Move Error → Option (Stage × List Signal)
  | .asking, .probes group answer =>
      if reaches process child group answer then some (.grace, [.terminate])
      else some (.finished, [])
  | .grace, .settles => if child.isPublished then some (.finished, []) else none
  | .grace, .elapses => some (.elapsed, [])
  | .elapsed, .probes group answer =>
      if reaches process child group answer then some (.forced, [.kill])
      else some (.finished, [])
  | .forced, .settles => if child.isPublished then some (.finished, []) else none
  | _, _ => none

end Escalation

/-- What a caller of the handle is there for.  An expired wait knows whether its
deadline was positive. -/
inductive Role
  | terminate
  | leave
  | kill
  | expire (positive : Bool)
  deriving DecidableEq, Repr

inductive Phase
  | called
  | queued
  | stopping (stage : Stage)
  | stopped
  | settling
  | ended
  deriving DecidableEq, Repr

namespace Role

def expires : Role → Bool
  | .expire _ => true
  | .terminate | .leave | .kill => false

def takesLock : Role → Bool
  | .kill => false
  | .terminate | .leave | .expire _ => true

/-- A kill is the forced half of an escalation, and takes no lock for it. -/
def entry : Role → Phase
  | .terminate | .leave => .queued
  | .kill => .stopping .elapsed
  | .expire _ => .called

end Role

structure Caller where
  role : Role
  phase : Phase
  cancelled : Bool := false
  deriving DecidableEq, Repr

namespace Caller

/-- Where a caller whose stop has ended goes on.  Behind its shield an expired wait
meets the cancellation that came meanwhile; the other callers settle first. -/
def released (caller : Caller) : Caller :=
  match caller.role, caller.cancelled with
  | .expire _, true => { caller with phase := .ended }
  | .expire _, false => { caller with phase := .settling }
  | .terminate, _ | .leave, _ | .kill, _ => { caller with phase := .stopped }

def stops (caller : Caller) : Bool :=
  match caller.phase with
  | .stopping _ => true
  | _ => false

/-- Only an expired wait stands unshielded, and not while it escalates. -/
def cancel (caller : Caller) : Caller :=
  if caller.role.expires && !caller.stops then { caller with phase := .ended }
  else { caller with cancelled := true }

end Caller

/-- The task that settles the run.  It waits for the child's return code, and then tears
down a group the run owns, by an escalation of its own. -/
inductive Settlement
  | idle
  | waiting
  | tearing (stage : Stage)
  | done (recorded : Bool)
  deriving DecidableEq, Repr

def Settlement.ensure : Settlement → Settlement
  | .idle => .waiting
  | settlement => settlement

/-- A handle: its child and the signals that reached it, the callers, and who holds the
stop lock. -/
structure State where
  child : Child := .running
  signals : List Signal := []
  callers : Nat → Option Caller := fun _ => none
  holder : Option Nat := none
  settlement : Settlement := .idle

inductive Event (Error : Type)
  | call (caller : Nat) (role : Role)
  | look (caller : Nat)
  | acquire (caller : Nat)
  | advance (caller : Nat) (move : Move Error)
  | release (caller : Nat)
  | settle (caller : Nat)
  | finish (caller : Nat)
  | cancel (caller : Nat)
  | wait
  | reap
  | tear (move : Move Error)
  | record (recorded : Bool)
  | exit
  | collect
  | publish
  deriving Repr

namespace State

def move (state : State) (index : Nat) (caller : Caller) : State :=
  { state with callers := Function.update state.callers index (some caller) }

def ensureTask (state : State) : State :=
  { state with settlement := state.settlement.ensure }

def send (state : State) (sent : List Signal) : State :=
  { state with signals := state.signals ++ sent }

def hold (state : State) (holder : Option Nat) : State :=
  { state with holder }

/-- An expired wait reads what is known of the run before it stops the child. -/
def look (state : State) (index : Nat) (caller : Caller) (positive : Bool) : State :=
  if state.settlement = .done true then state.move index { caller with phase := .ended }
  else if positive && state.child.observedExitCode then
    state.ensureTask.move index { caller with phase := .settling }
  else state.ensureTask.move index { caller with phase := .queued }

def release (state : State) (index : Nat) (caller : Caller) : State :=
  (if caller.role.takesLock then state.hold none else state).move index caller.released

end State

section System

variable (process : Process Execution)

def next (state : State) : Event Error → Option State
  | .call index role =>
      match state.callers index with
      | none => some (state.move index { role, phase := role.entry })
      | some _ => none
  | .look index =>
      match state.callers index with
      | some caller =>
          match caller.role, caller.phase with
          | .expire positive, .called => some (state.look index caller positive)
          | _, _ => none
      | none => none
  | .acquire index =>
      match state.callers index with
      | some caller =>
          if caller.phase = .queued ∧ state.holder = none then
            some ((state.hold (some index)).move index { caller with phase := .stopping .asking })
          else none
      | none => none
  | .advance index move =>
      match state.callers index with
      | some caller =>
          match caller.phase with
          | .stopping stage =>
              (advance process state.child stage move).map fun (after, sent) =>
                (state.send sent).move index { caller with phase := .stopping after }
          | _ => none
      | none => none
  | .release index =>
      match state.callers index with
      | some caller =>
          if caller.phase = .stopping .finished then some (state.release index caller) else none
      | none => none
  | .settle index =>
      match state.callers index with
      | some caller =>
          if caller.phase = .stopped then
            some (state.ensureTask.move index { caller with phase := .settling })
          else none
      | none => none
  | .finish index =>
      match state.callers index, state.settlement with
      | some caller, .done _ =>
          if caller.phase = .settling then some (state.move index { caller with phase := .ended })
          else none
      | _, _ => none
  | .cancel index =>
      match state.callers index with
      | some caller =>
          if caller.phase = .ended then none else some (state.move index caller.cancel)
      | none => none
  | .wait => some state.ensureTask
  | .reap =>
      if state.settlement = .waiting ∧ state.child.isPublished then
        some { state with
          settlement := .tearing (if process.ownsGroup then .asking else .finished) }
      else none
  | .tear move =>
      match state.settlement with
      | .tearing stage =>
          (advance process state.child stage move).map fun (after, sent) =>
            { state.send sent with settlement := .tearing after }
      | _ => none
  | .record recorded =>
      if state.settlement = .tearing .finished then some { state with settlement := .done recorded }
      else none
  | .exit => if state.child = .running then some { state with child := .exited } else none
  | .collect => if state.child = .exited then some { state with child := .collected } else none
  | .publish => if state.child = .collected then some { state with child := .published } else none

def handle : System State (Event Error) where
  initial := {}
  next := next process

end System

end Cuprum.Stops
