import Cuprum.NativePump.Completion
import Cuprum.Transition.System

namespace Cuprum.NativePump

open Cuprum.Effect
open Cuprum.Transition

inductive PumpTask
  | handingOff
  | registering
  | announcing
  | awaiting
  | settling
  | releasing
  | ended
  deriving DecidableEq

/-- The submitted job and then its completion callback. -/
inductive Job
  | absent
  | queued
  | pumping
  | returned (failed : Bool)
  | published (failed : Bool)
  | completed
  | signalled
  deriving DecidableEq

structure Config where
  paused : Bool
  modes : BlockingModes

/-- `scheduled` is the resumption waiting on the loop, `cleanupDone` the settled
`cleanup_complete`; `inline` marks a callback that runs where it is registered. -/
structure State where
  hop : Hop
  task : PumpTask := .handingOff
  held : Option RustPumpState := none
  job : Job := .absent
  registered : Bool := false
  inline : Bool := false
  scheduled : Bool := false
  cleanupDone : Bool := false
  loopClosed : Bool := false
  deriving DecidableEq

/-- One step of the pump's task, of the job's thread or of the event loop.  What
an observer raises at a step is part of the event. -/
inductive Event
  | handOff (faults : Faults)
  | register
  | announce (raised : Option Raised)
  | prepare (faults : Faults)
  | stopNative (failed : Bool)
  | publish
  | complete (faults : Faults)
  | signal
  | resume
  | wake
  | cancel (raised : Option Raised)
  | settle
  | graceExpires
  | release
  | closeLoop

def Job.failed? : Job → Option Bool
  | published failed => some failed
  | _ => none

def Job.isPublished (job : Job) : Bool :=
  job.failed?.isSome

namespace State

def handOff (state : State) (config : Config) (faults : Faults) : State :=
  match pumpOverRawFds faults config.paused config.paused state.hop with
  | .ok none hop => { state with hop := hop, task := .ended }
  | .ok (some held) hop =>
      { state with hop := hop, task := .registering, held := some held, job := .queued }
  | .error _ hop => { state with hop := hop, task := .ended }

/-- A future that is done already runs its callback inside `add_done_callback`. -/
def register (state : State) : State :=
  { state with
    task := .announcing
    registered := true
    inline := state.job.isPublished
    hop := { state.hop with retained := true } }

def announce (state : State) (raised : Option Raised) : State :=
  { state with
    task := if raised.isSome then .ended else .awaiting
    hop := { state.hop with
      handoffOutcomes := state.hop.handoffOutcomes ++ [.submitted] } }

def prepare (state : State) (faults : Faults) : State :=
  match prepareRustPumpCall faults state.hop with
  | .ok _ hop => { state with job := .pumping, hop := { hop with io := .running } }
  | .error _ hop => { state with job := .returned true, hop := hop }

/-- The native call owns the writer and closes it on every way out. -/
def stopNative (state : State) (failed : Bool) : State :=
  { state with
    job := .returned failed
    hop := { state.hop with
      io := .stopped
      closed := state.hop.closed ++ [(.nativeWriter, .job)] } }

def complete (state : State) (held : RustPumpState) (failed : Bool) (faults : Faults) :
    State :=
  { state with
    job := .completed
    hop := left (completeRustPump faults held failed) state.hop }

/-- A closed loop refuses the resumption, and the refusal is suppressed. -/
def signal (state : State) : State :=
  { state with job := .signalled, scheduled := !state.loopClosed }

def resume (state : State) (held : RustPumpState) : State :=
  { state with
    scheduled := false
    cleanupDone := true
    hop := { state.hop with
      transport := state.hop.transport.handedBack held.resumeReader } }

def cancel (state : State) (raised : Option Raised) : State :=
  { state with
    task := if raised.isSome then .ended else .settling
    hop := { state.hop with wasCancelled := true } }

/-- `defer_cleanup`, under its lock. -/
def graceExpires (state : State) : State :=
  if state.hop.cleanupCompleted then
    { state with task := .ended }
  else
    { state with
      task := .releasing
      hop := { state.hop with
        wasDeferred := true
        winners := state.hop.winners ++ [.deferral] } }

def release (state : State) (held : RustPumpState) : State :=
  { state with
    task := .ended
    hop := { state.hop with
      transport := if held.releaseReader then .closed else state.hop.transport } }

end State

def next (config : Config) (state : State) : Event → Option State
  | .handOff faults =>
      if state.task = .handingOff then some (state.handOff config faults) else none
  | .register => if state.task = .registering then some state.register else none
  | .announce raised =>
      if state.task = .announcing ∧ (state.inline → state.job = .signalled) then
        some (state.announce raised)
      else
        none
  | .prepare faults => if state.job = .queued then some (state.prepare faults) else none
  | .stopNative failed =>
      if state.job = .pumping then some (state.stopNative failed) else none
  | .publish =>
      match state.job with
      | .returned failed => some { state with job := .published failed }
      | _ => none
  | .complete faults =>
      match state.held, state.job.failed? with
      | some held, some failed =>
          if state.registered then some (state.complete held failed faults) else none
      | _, _ => none
  | .signal => if state.job = .completed then some state.signal else none
  | .resume =>
      match state.held with
      | some held =>
          if state.scheduled ∧ state.loopClosed = false then
            some (state.resume held)
          else
            none
      | none => none
  | .wake =>
      if state.task = .awaiting ∧ state.cleanupDone then
        some { state with task := .ended }
      else
        none
  | .cancel raised =>
      if state.task = .awaiting then
        some (state.cancel raised)
      else if state.task = .settling then
        some state
      else
        none
  | .settle =>
      if state.task = .settling ∧ state.cleanupDone then
        some { state with task := .ended }
      else
        none
  | .graceExpires =>
      if state.task = .settling ∧ state.cleanupDone = false then
        some state.graceExpires
      else
        none
  | .release =>
      match state.held with
      | some held => if state.task = .releasing then some (state.release held) else none
      | none => none
  | .closeLoop =>
      if state.task = .ended ∧ state.loopClosed = false then
        some { state with loopClosed := true }
      else
        none

def system (config : Config) : System State Event where
  initial := { hop := .fresh config.paused config.modes }
  next := next config

/-- Nothing that belongs to the hop can run any more. -/
def State.Quiescent (state : State) : Prop :=
  state.task = .ended ∧ (state.job = .absent ∨ state.job = .signalled) ∧
    (state.scheduled → state.loopClosed)

/-- What holds of a hop at every moment.  Once given back, the modes are those that it
was configured with, unless a call that gives one back has failed. -/
structure State.Orderly (config : Config) (state : State) : Prop where
  openedOnce : ∀ descriptor, state.hop.opened.count descriptor ≤ 1
  closedOnce : ∀ descriptor,
    (state.hop.closed.map Prod.fst).count descriptor ≤ state.hop.opened.count descriptor
  writer : ∀ closer, (Descriptor.nativeWriter, closer) ∈ state.hop.closed →
    closer = if state.hop.submitted then .job else .start
  stopped : state.hop.restorations ≠ [] → state.hop.io ≠ .running
  restored : .running ∉ state.hop.restorations
  original : state.hop.restorations ≠ [] → state.hop.refusals = [] →
    state.hop.modes = config.modes
  oneWinner : state.hop.winners.length ≤ 1

/-- What holds of a hop when nothing of it is left to run. -/
structure State.Released (config : Config) (state : State) : Prop where
  closed : ∀ descriptor,
    (state.hop.closed.map Prod.fst).count descriptor = state.hop.opened.count descriptor
  flowing : state.hop.transport ≠ .paused
  restored : state.hop.engaged → state.hop.restorations.length = 1
  original : state.hop.refusals = [] → state.hop.modes = config.modes
  winner : state.hop.submitted → state.hop.winners.length = 1

/-- The steps that do not reach a defect: no operation on the hop's own duplicates
fails outside `OSError` and `ValueError`, no log record raises while the hop holds
what it opened, and the loop is closed only once the cleanup is done or deferred. -/
def permitted (state : State) : Event → Bool
  | .handOff faults => faults.foreseen
  | .prepare faults => (faults .logReaderPreparation).isNone
  | .closeLoop =>
      state.cleanupDone || state.hop.wasDeferred || state.job = .absent
  | _ => true

end Cuprum.NativePump
