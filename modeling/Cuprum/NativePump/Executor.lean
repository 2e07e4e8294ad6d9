import Cuprum.Transition.System
import Mathlib.Logic.Function.Basic

namespace Cuprum.NativePump.Executor

open Transition

/-- A native pump call awaiting a worker; functions and futures are known by identity. -/
structure NativePumpJob where
  function : Nat
  readerFd : Int
  writerFd : Int
  future : Nat
  deriving DecidableEq

inductive FutureState
  | pending
  | cancelled
  | finished (failed : Bool)
  deriving DecidableEq

/-- Where a worker thread is: at its inbox, in a job's call, between its settled future
and the idle pool, or over; a thread ends by retiring or on an error of its own. -/
inductive WorkerPhase
  | unstarted
  | waiting
  | running (job : NativePumpJob)
  | settled
  | retired
  | died
  deriving DecidableEq

structure Worker where
  inbox : List NativePumpJob
  phase : WorkerPhase
  deriving DecidableEq

/-- Where a call of `submit` is. -/
inductive SubmitPhase
  | taking
  | starting
  | holding (worker : Nat)
  | returned
  | raised
  deriving DecidableEq

structure Submission where
  job : NativePumpJob
  phase : SubmitPhase
  deriving DecidableEq

/-- The executor with the threads and calls there are; `started` are the calls of the
jobs' functions so far. -/
structure PooledExecutor where
  idleLimit : Nat
  idle : List Nat
  workers : Nat → Worker
  workerCount : Nat
  submissions : Nat → Option Submission
  submissionCount : Nat
  futures : Nat → FutureState
  started : List NativePumpJob

/-- One step of a submitter, of a worker thread or of a future's owner.  Whether a thread
can be started, and what a call and a future's callbacks raise, is part of the event. -/
inductive Event
  | submit (function : Nat) (readerFd writerFd : Int)
  | takeWorker (submission : Nat)
  | startWorker (submission : Nat) (fails : Bool)
  | put (submission : Nat)
  | get (worker : Nat)
  | settle (worker : Nat) (failed callbackRaises : Bool)
  | retireOrReuse (worker : Nat)
  | cancel (future : Nat)

namespace PooledExecutor

def initial (idleLimit : Nat) : PooledExecutor where
  idleLimit
  idle := []
  workers _ := ⟨[], .unstarted⟩
  workerCount := 0
  submissions _ := none
  submissionCount := 0
  futures _ := .pending
  started := []

def setWorker (self : PooledExecutor) (worker : Nat) (value : Worker) : PooledExecutor :=
  { self with workers := Function.update self.workers worker value }

def setSubmission (self : PooledExecutor) (submission : Nat) (value : Submission) :
    PooledExecutor :=
  { self with submissions := Function.update self.submissions submission (some value) }

/-- `submit` makes the future and the job before it looks for a worker. -/
def submit (self : PooledExecutor) (function : Nat) (readerFd writerFd : Int) :
    PooledExecutor :=
  let job : NativePumpJob := ⟨function, readerFd, writerFd, self.submissionCount⟩
  { self.setSubmission self.submissionCount ⟨job, .taking⟩ with
    submissionCount := self.submissionCount + 1 }

/-- Under the lock: the idle worker added last, if there is one. -/
def takeWorker (self : PooledExecutor) (submission : Nat) (job : NativePumpJob) :
    PooledExecutor :=
  match self.idle.getLast? with
  | some worker =>
      { self.setSubmission submission ⟨job, .holding worker⟩ with
        idle := self.idle.dropLast }
  | none => self.setSubmission submission ⟨job, .starting⟩

/-- A thread that cannot be started raises out of `submit`. -/
def startWorker (self : PooledExecutor) (submission : Nat) (job : NativePumpJob)
    (fails : Bool) : PooledExecutor :=
  if fails then self.setSubmission submission ⟨job, .raised⟩
  else
    { (self.setSubmission submission ⟨job, .holding self.workerCount⟩).setWorker
        self.workerCount ⟨[], .waiting⟩ with
      workerCount := self.workerCount + 1 }

def put (self : PooledExecutor) (submission : Nat) (job : NativePumpJob) (worker : Nat) :
    PooledExecutor :=
  let held := self.workers worker
  (self.setWorker worker { held with inbox := held.inbox ++ [job] }).setSubmission submission
    ⟨job, .returned⟩

/-- The worker's `get` returns a job and the job's function is called. -/
def get (self : PooledExecutor) (worker : Nat) (job : NativePumpJob)
    (inbox : List NativePumpJob) : PooledExecutor :=
  { self.setWorker worker ⟨inbox, .running job⟩ with started := self.started ++ [job] }

/-- The future's state and whether the worker's thread is left with an error: a future
that is cancelled refuses its result and then the exception, and a callback that raises
outside `Exception` finds it finished. -/
def settleNativePumpFuture (future : FutureState) (failed callbackRaises : Bool) :
    FutureState × Bool :=
  match future with
  | .pending => (.finished failed, callbackRaises)
  | settled => (settled, true)

def settle (self : PooledExecutor) (worker : Nat) (job : NativePumpJob)
    (failed callbackRaises : Bool) : PooledExecutor :=
  let (future, raises) :=
    settleNativePumpFuture (self.futures job.future) failed callbackRaises
  let phase := if raises then .died else .settled
  { self.setWorker worker { self.workers worker with phase } with
    futures := Function.update self.futures job.future future }

/-- Under the lock: back to the idle pool, or out when it is full. -/
def retireOrReuse (self : PooledExecutor) (worker : Nat) : PooledExecutor :=
  if self.idleLimit ≤ self.idle.length then
    self.setWorker worker { self.workers worker with phase := .retired }
  else
    { self.setWorker worker { self.workers worker with phase := .waiting } with
      idle := self.idle ++ [worker] }

/-- A future that is never marked as running can be cancelled until it is settled. -/
def cancel (self : PooledExecutor) (future : Nat) : PooledExecutor :=
  match self.futures future with
  | .pending => { self with futures := Function.update self.futures future .cancelled }
  | _ => self

def next (self : PooledExecutor) : Event → Option PooledExecutor
  | .submit function readerFd writerFd => some (self.submit function readerFd writerFd)
  | .takeWorker submission =>
      match self.submissions submission with
      | some ⟨job, .taking⟩ => some (self.takeWorker submission job)
      | _ => none
  | .startWorker submission fails =>
      match self.submissions submission with
      | some ⟨job, .starting⟩ => some (self.startWorker submission job fails)
      | _ => none
  | .put submission =>
      match self.submissions submission with
      | some ⟨job, .holding worker⟩ => some (self.put submission job worker)
      | _ => none
  | .get worker =>
      match self.workers worker with
      | ⟨job :: inbox, .waiting⟩ => some (self.get worker job inbox)
      | _ => none
  | .settle worker failed callbackRaises =>
      match (self.workers worker).phase with
      | .running job => some (self.settle worker job failed callbackRaises)
      | _ => none
  | .retireOrReuse worker =>
      match (self.workers worker).phase with
      | .settled => some (self.retireOrReuse worker)
      | _ => none
  | .cancel future => some (self.cancel future)

end PooledExecutor

def executor (idleLimit : Nat) : System PooledExecutor Event where
  initial := .initial idleLimit
  next := PooledExecutor.next

end Cuprum.NativePump.Executor
