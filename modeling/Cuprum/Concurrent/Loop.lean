import Mathlib.Algebra.GroupWithZero.Nat
import Mathlib.Data.List.FinRange
import Cuprum.Concurrent.Runner
import Cuprum.Semaphore.Fifo
import Cuprum.Transition.System

namespace Cuprum.Concurrent

open Semaphore Transition

/-! The event loop that runs the commands: the callbacks that are ready, in their order,
and the tasks they step.  Between two callbacks a command that is underway may come to
its end, and the caller may cancel the run. -/

structure ConcurrentConfig (count : Nat) where
  concurrency : Option Nat
  failFast : Bool
  /-- The order a task group cancels its tasks in, which is that of a set. -/
  order : List (Fin count)
  positive : ∀ limit ∈ concurrency, 1 ≤ limit
  complete : ∀ idx, idx ∈ order

inductive Callback (count : Nat)
  /-- The first step of a task. -/
  | first (idx : Fin count)
  /-- The step of a task whose future in the semaphore is done. -/
  | resume (idx : Fin count) (granted : Bool)
  /-- What a task that is done calls back. -/
  | settled (idx : Fin count) (failed : Bool)
  /-- The step of a task group whose own task is cancelled. -/
  | abort
  deriving DecidableEq

variable {ρ ε : Type} {count : Nat}

local instance lawfulBEq_fin : LawfulBEq (Fin count) :=
  inferInstance

structure Loop (ρ ε : Type) (count : Nat) where
  semaphore : Option (Fifo (Fin count))
  ready : List (Callback count)
  underway : List (Fin count) := []
  started : List (Fin count) := []
  completions : List (Fin count × Ending ρ ε) := []
  /-- The tasks into whose next step a cancellation is thrown. -/
  thrown : List (Fin count) := []
  settled : List (Fin count) := []
  aborting : Bool := false

inductive Event (ρ ε : Type) (count : Nat)
  /-- The next callback runs. -/
  | turn
  /-- The run of a command comes to its end. -/
  | finish (idx : Fin count) (ending : Ending ρ ε)
  /-- The caller cancels. -/
  | cancel

def ConcurrentConfig.loop (config : ConcurrentConfig count) : Loop ρ ε count where
  semaphore := config.concurrency.map fun limit => { value := limit }
  ready := (List.finRange count).map .first

/-- A task fails with what makes a task group abort. -/
def Ending.failed (ok : ρ → Bool) : Ending ρ ε → Bool
  | .result value => !ok value
  | .cancelled => false
  | .raised _ => true

namespace Loop

def schedule (self : Loop ρ ε count) (callbacks : List (Callback count)) : Loop ρ ε count :=
  { self with ready := self.ready ++ callbacks }

def start (self : Loop ρ ε count) (idx : Fin count) : Loop ρ ε count :=
  { self with
    underway := self.underway ++ [idx]
    started := self.started ++ [idx] }

def wake (self : Loop ρ ε count) (woken : List (Fin count) × Fifo (Fin count)) :
    Loop ρ ε count :=
  schedule { self with semaphore := some woken.2 } (woken.1.map (.resume · true))

section

variable (ok : ρ → Bool)

def conclude (self : Loop ρ ε count) (idx : Fin count) (ending : Ending ρ ε) :
    Loop ρ ε count :=
  schedule { self with completions := self.completions ++ [(idx, ending)] }
    [.settled idx (ending.failed ok)]

/-- `_run_with_semaphore` until the semaphore is acquired, or waited for. -/
def first (self : Loop ρ ε count) (idx : Fin count) : Loop ρ ε count :=
  if idx ∈ self.thrown then self.conclude ok idx .cancelled
  else
    match self.semaphore with
    | none => self.start idx
    | some semaphore =>
        if semaphore.locked then { self with semaphore := some (semaphore.enqueue idx) }
        else start { self with semaphore := some semaphore.acquire } idx

/-- `Semaphore.acquire` from the await of its future on.  A future is waited for in the
semaphore only. -/
def resume (self : Loop ρ ε count) (idx : Fin count) (granted : Bool) : Loop ρ ε count :=
  match self.semaphore with
  | none => self
  | some semaphore =>
      let throws := !granted || idx ∈ self.thrown
      let self := self.wake (semaphore.leave idx (granted && throws))
      if throws then self.conclude ok idx .cancelled else self.start idx

def release (self : Loop ρ ε count) : Loop ρ ε count :=
  match self.semaphore with
  | none => self
  | some semaphore => self.wake semaphore.release

/-- `_run_with_semaphore` from the end of its command on. -/
def finish (self : Loop ρ ε count) (idx : Fin count) (ending : Ending ρ ε) :
    Loop ρ ε count :=
  (release { self with underway := self.underway.erase idx }).conclude ok idx ending

/-- A command that is underway learns of its cancellation by itself. -/
def cancelTask (self : Loop ρ ε count) (idx : Fin count) : Loop ρ ε count :=
  if idx ∈ self.completions.map Prod.fst then self
  else
    match self.semaphore.bind (·.cancel idx) with
    | none => { self with thrown := idx :: self.thrown }
    | some semaphore =>
        schedule { self with semaphore := some semaphore } [.resume idx false]

def cancelTasks (self : Loop ρ ε count) (tasks : List (Fin count)) : Loop ρ ε count :=
  tasks.foldl cancelTask self

/-- `TaskGroup._abort`. -/
def abort (config : ConcurrentConfig count) (self : Loop ρ ε count) : Loop ρ ε count :=
  if self.aborting then self
  else cancelTasks { self with aborting := true }
    (config.order.filter (· ∉ self.settled))

/-- `TaskGroup._on_task_done`, or what `gather` counts. -/
def onTaskDone (config : ConcurrentConfig count) (self : Loop ρ ε count) (idx : Fin count)
    (failed : Bool) : Loop ρ ε count :=
  let self := { self with settled := self.settled ++ [idx] }
  if config.failFast && failed then self.abort config else self

def run (config : ConcurrentConfig count) (self : Loop ρ ε count) :
    Callback count → Loop ρ ε count
  | .first idx => self.first ok idx
  | .resume idx granted => self.resume ok idx granted
  | .settled idx failed => self.onTaskDone config idx failed
  | .abort => self.abort config

def turn (config : ConcurrentConfig count) (self : Loop ρ ε count) :
    Option (Loop ρ ε count) :=
  match self.ready with
  | [] => none
  | callback :: ready => some (run ok config { self with ready := ready } callback)

/-- A gathering is cancelled task by task, at once; a task group at its own next step. -/
def cancel (config : ConcurrentConfig count) (self : Loop ρ ε count) : Loop ρ ε count :=
  if config.failFast then self.schedule [.abort] else self.cancelTasks (List.finRange count)

def next (config : ConcurrentConfig count) (self : Loop ρ ε count) :
    Event ρ ε count → Option (Loop ρ ε count)
  | .turn => self.turn ok config
  | .finish idx ending => if idx ∈ self.underway then some (self.finish ok idx ending) else none
  | .cancel => if self.settled.length < count then some (self.cancel config) else none

end

end Loop

def ConcurrentConfig.system (config : ConcurrentConfig count) (ok : ρ → Bool) :
    System (Loop ρ ε count) (Event ρ ε count) where
  initial := config.loop
  next := fun state event => state.next ok config event

end Cuprum.Concurrent
