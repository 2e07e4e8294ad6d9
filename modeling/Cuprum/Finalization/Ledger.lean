import Mathlib.Data.List.FinRange
import Mathlib.Logic.Function.Basic
import Cuprum.Effect.Program

namespace Cuprum.Finalization

open Cuprum.Effect

inductive Raised
  | cancelled
  | timedOut
  | failed
  | generatorExit
  | fatal
  deriving DecidableEq

/-- `contextlib.suppress(Exception, asyncio.CancelledError)`. -/
def Raised.isSuppressed : Raised → Bool
  | cancelled | timedOut | failed => true
  | generatorExit | fatal => false

/-- The stage of a run that has no other. -/
def only : Fin 1 :=
  Fin.last 0

/-- The awaits of a run and of its finalization, and the calls of its hooks. -/
inductive Site (count : Nat)
  | openSink
  | prepare
  | refresh
  | plan (stage : Fin count)
  | before (stage : Fin count)
  | build
  | spawn
  | spawnCleanup
  | execute
  | bodyWorker
  | results
  | after (stage : Fin count)
  | yieldResult
  | coordinator
  | cancelTasks
  | worker
  | session
  | reports
  | settled (stage : Fin count)
  | drain
  | captures
  | idle
  | lastGuard

/-- Whether a sink opens a session for the run, and whether the run delivers to it
through a bounded worker. -/
inductive Framing
  | unframed
  | direct
  | bounded
  deriving DecidableEq

/-- How a bounded close goes: the closing thread comes to `session.close`, a sink write
keeps the writer lock from it until the run has ended, or the thread cannot be started. -/
inductive Closing
  | called
  | outlasted
  | refused (error : Raised)
  deriving DecidableEq

/-- What a run meets: whether observe hooks are installed and a sink opens a session;
what each call raises, how a bounded close of the session goes, where a cancellation
reaches a shield, and how many tasks an event's hooks schedule. -/
structure Env (count : Nat) where
  observed : Bool
  framing : Framing
  closing : Site count → Closing
  raises : Site count → Option Raised
  interrupts : Site count → Bool
  schedules : Site count → Nat

/-- How far `_LineIterationState` has been built. -/
inductive Iteration
  | unbuilt
  | built
  | awaitable
  | coordinated
  deriving DecidableEq

/-- `session` is whether the bracket owns the session; `closes` counts the calls of
`session.close`. -/
structure Ledger (count : Nat) where
  planned : Fin count → Bool := fun _ => false
  settled : Fin count → Nat := fun _ => 0
  pending : Nat := 0
  opens : Nat := 0
  session : Bool := false
  closes : Nat := 0
  iteration : Iteration := .unbuilt

variable {count : Nat} (env : Env count)

abbrev Step (count : Nat) := Program (Ledger count) Raised Unit

def Env.interruption (site : Site count) : Option Raised :=
  if env.interrupts site then some .cancelled else none

/-- Neither fails nor is interrupted. -/
def Env.unhurt (site : Site count) : Bool :=
  (env.raises site).isNone && !env.interrupts site

def call (site : Site count) : Step count :=
  match env.raises site with
  | none => pure ()
  | some error => throw error

/-- The tasks that the hooks of an event schedule, before one of them may raise. -/
def schedule (site : Site count) : Step count :=
  modify fun ledger =>
    { ledger with
      pending := ledger.pending + if env.observed then env.schedules site else 0 }

def emit (site : Site count) : Step count :=
  if env.observed then do
    schedule env site
    call env site
  else
    pure ()

def execute (site : Site count) : Step count := do
  schedule env site
  call env site

def suppressed (step : Step count) : Step count :=
  tryCatch step fun error => if error.isSuppressed then pure () else throw error

/-- The plan is marked before it is dispatched. -/
def emitPlan (stage : Fin count) : Step count :=
  if env.observed then do
    modify fun ledger =>
      { ledger with planned := Function.update ledger.planned stage true }
    emit env (.plan stage)
  else
    pure ()

def emitTerminal (stage : Fin count) : Step count := do
  let ledger ← get
  if ledger.settled stage ≠ 0 ∨ ledger.planned stage = false then
    pure ()
  else do
    set { ledger with
      settled := Function.update ledger.settled stage (ledger.settled stage + 1) }
    emit env (.settled stage)

def safeEmitTerminal (stage : Fin count) : Step count :=
  suppressed (emitTerminal env stage)

def emitTerminalEventsOf : List (Fin count) → Step count
  | [] => pure ()
  | stage :: stages => do
      safeEmitTerminal env stage
      emitTerminalEventsOf stages

def emitTerminalEvents : Step count :=
  emitTerminalEventsOf env (List.finRange count)

/-- Every stage is told before the first failure is handed back. -/
def emitResultTerminalEventsOf :
    List (Fin count) → Program (Ledger count) Raised (Option Raised)
  | [] => pure none
  | stage :: stages => do
      let first ← tryCatch (do emitTerminal env stage; pure none) fun error =>
        pure (some error)
      let later ← emitResultTerminalEventsOf stages
      pure (first.or later)

def emitResultTerminalEvents (bestEffort : Bool) : Step count := do
  let first ← emitResultTerminalEventsOf env (List.finRange count)
  match first, bestEffort with
  | some error, false => throw error
  | _, _ => pure ()

/-- The bracket opens its session; an adapter may raise or decline. -/
def openSession : Step count := do
  call env .openSink
  if env.framing = .unframed then
    pure ()
  else
    modify fun ledger => { ledger with opens := ledger.opens + 1, session := true }

/-- The session is taken out of the bracket before it is closed. -/
def close (site : Site count) : Step count := do
  modify fun ledger => { ledger with session := false, closes := ledger.closes + 1 }
  call env site

/-- A close whose grace is over returns, with its thread still behind the sink write; a
thread that does not start puts the session back. -/
def closeBounded (site : Site count) : Step count :=
  match env.closing site with
  | .called => close env site
  | .outlasted => modify fun ledger => { ledger with session := false }
  | .refused error => throw error

/-- `_SinkBracket.aclose`: a bracket without a session has nothing to close. -/
def closeSession (site : Site count) : Step count := do
  let ledger ← get
  if ledger.session then
    if env.framing = .bounded then closeBounded env site else close env site
  else
    pure ()

/-- All tasks are gathered before the first failure among them is raised. -/
def waitForExecHookTasks : Step count := do
  modify fun ledger => { ledger with pending := 0 }
  call env .drain

def drainTasksDuringCleanup : Step count :=
  tryCatch (waitForExecHookTasks env) fun _ => throw .failed

def shieldedCleanup (site : Site count) (cleanup : Step count) : Step count :=
  shielded (env.interruption site) cleanup

end Cuprum.Finalization
