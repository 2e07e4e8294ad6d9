import Mathlib.Data.List.FinRange
import Mathlib.Logic.Function.Basic
import Cuprum.Effect.Program

namespace Cuprum.Startup

open Cuprum.Effect

inductive Raised
  | cancelled
  | failed
  deriving DecidableEq

inductive Stream
  | stdout
  | stderr
  deriving DecidableEq

/-- What an output of the child is bound to. -/
inductive Binding
  | pipe
  | ownedPath
  | borrowed
  | inherited
  deriving DecidableEq

/-- The tasks made for a child. -/
inductive Job (count : Nat)
  | heartbeat
  | writer
  | consumer (stage : Fin count) (stream : Stream)
  deriving DecidableEq

/-- A `killed` child is one whose exit is not awaited. -/
inductive Child
  | absent
  | live
  | killed
  | reaped
  deriving DecidableEq

/-- There is no child whose exit is still to be awaited. -/
def Child.isSettled : Child → Bool
  | absent | reaped => true
  | live | killed => false

def Child.reap : Child → Child
  | live => reaped
  | child => child

inductive Task
  | absent
  | live
  | settled
  deriving DecidableEq

/-- The task is cancelled, unless it is done, and awaited. -/
def Task.settle : Task → Task
  | live => settled
  | task => task

/-- The calls and awaits between the start of an entry and the hand-over of what it
owns, and those of its cleanup. -/
inductive Site (count : Nat)
  | openPath (stream : Stream)
  | flush (stream : Stream)
  | popen
  | connectPipes
  | spawn (stage : Fin count)
  | start (stage : Fin count)
  | launch
  | prepare
  | writer
  | callback (stage : Fin count) (stream : Stream)
  | consumer (stage : Fin count) (stream : Stream)
  | spawned
  | detach
  | heartbeat
  | teardownStarted
  | terminate
  | drainStarted
  | drain
  | drainCompleted
  | teardownCompleted
  | terminals

/-- What an entry is given and what it meets: whether `wait4` reaps the child, the
bindings of its outputs, whether a writer feeds its input, whether idleness is watched
and which outputs a pipeline consumes; what each call raises, which spawn is cancelled
while it awaits the child that it has killed, where a cancellation reaches a shield,
which children a signal reaches and which captures spill to a file. -/
structure Env (count : Nat) where
  wait4 : Bool
  binding : Stream → Binding
  feeds : Bool
  idle : Bool
  consumes : Stream → Bool
  raises : Site count → Option Raised
  strands : Site count → Bool
  interrupts : Site count → Bool
  reaches : Fin count → Bool
  spills : Fin count → Stream → Bool

structure Ledger (count : Nat) where
  child : Fin count → Child := fun _ => .absent
  task : Job count → Task := fun _ => .absent
  sink : Fin count → Stream → Bool := fun _ _ => false
  opened : List Stream := []
  closes : Stream → Nat := fun _ => 0
  processes : List (Fin count) := []
  recorded : List (Job count) := []

variable {count : Nat} (env : Env count)

abbrev Step (count : Nat) := Program (Ledger count) Raised Unit

def call (site : Site count) : Step count :=
  attempt (env.raises site)

/-- A child whose spawn raises is killed, and its exit awaited unless that await is
cancelled. -/
def abandonSpawn (site : Site count) (stage : Fin count) : Step count :=
  if env.strands site then
    modify fun ledger => { ledger with child := Function.update ledger.child stage .killed }
  else
    pure ()

/-- `asyncio.create_subprocess_exec`, but for the child that it returns. -/
def createSubprocessExec (site : Site count) (stage : Fin count) : Step count :=
  tryCatch (call env site) fun error => do
    abandonSpawn env site stage
    throw error

def Env.interruption (site : Site count) : Option Raised :=
  if env.interrupts site then some .cancelled else none

def shieldedCleanup (site : Site count) (cleanup : Step count) : Step count :=
  shielded (env.interruption site) cleanup

/-- While the entry is suspended the consumers run, and their captures may spill. -/
def suspend : Step count :=
  modify fun ledger => { ledger with
    sink := fun stage stream => ledger.sink stage stream ||
      (decide (ledger.task (.consumer stage stream) = .live) && env.spills stage stream) }

def create (job : Job count) : Step count :=
  modify fun ledger => { ledger with task := Function.update ledger.task job .live }

def settle (jobs : List (Job count)) : Step count :=
  modify fun ledger => { ledger with
    task := fun job => if job ∈ jobs then (ledger.task job).settle else ledger.task job }

def record (jobs : List (Job count)) : Step count :=
  modify fun ledger => { ledger with recorded := ledger.recorded ++ jobs }

def release : Step count :=
  modify fun ledger => { ledger with sink := fun _ _ => false }

/-- `_terminate_process` awaits the exit of every child that its signals reach. -/
def terminate (stages : List (Fin count)) : Step count := do
  suspend env
  modify fun ledger => { ledger with
    child := fun stage =>
      if stage ∈ stages ∧ env.reaches stage = true then (ledger.child stage).reap
      else ledger.child stage }

/-- The driver is gathered before a cancellation of this await is raised. -/
def stopIdleMonitor : Step count := do
  let ledger ← get
  if ledger.task .heartbeat = .live then do
    settle [.heartbeat]
    suspend env
    call env .heartbeat
  else
    pure ()

def launchIdleMonitor : Step count :=
  if env.idle then do
    call env .launch
    create .heartbeat
  else
    pure ()

end Cuprum.Startup
