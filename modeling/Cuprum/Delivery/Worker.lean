import Cuprum.Transition.System

namespace Cuprum.Delivery

inductive EchoStream
  | stdout
  | stderr
  deriving DecidableEq

inductive DeliveryValue
  | text (value : String)
  | bytes (value : List UInt8)
  deriving DecidableEq

def DeliveryValue.isEmpty : DeliveryValue → Bool
  | text value => value.isEmpty
  | bytes value => value.isEmpty

structure DeliveryPayload where
  value : DeliveryValue
  sourceBytes : Nat
  deriving DecidableEq

/-- One sink operation.  Its ticket tells it from equal ones, as an object's
identity does; diagnostics collectors are known by identity too. -/
structure DeliveryItem where
  ticket : Nat
  stream : EchoStream
  payload : DeliveryPayload
  flush : Bool
  diagnostics : Option Nat
  deriving DecidableEq

def DeliveryItem.bytes (item : DeliveryItem) : Nat := item.payload.sourceBytes

structure DeliveryFailure where
  stream : EchoStream
  diagnostics : Option Nat
  deriving DecidableEq

def DeliveryItem.failure (item : DeliveryItem) : DeliveryFailure :=
  ⟨item.stream, item.diagnostics⟩

structure UndeliveredBytes where
  stream : EchoStream
  byteCount : Nat
  diagnostics : Option Nat
  deriving DecidableEq

structure DeliveryCloseResult where
  failures : List DeliveryFailure
  undeliveredBytes : List UndeliveredBytes
  deriving DecidableEq

/-- Where the worker thread stands between two of its atomic steps. -/
inductive WorkerStage
  | fetching
  | checking (item : DeliveryItem)
  | cleared (item : DeliveryItem)
  | writing (item : DeliveryItem)
  | returned (item : DeliveryItem)
  | raised (item : DeliveryItem)
  | stopped
  deriving DecidableEq

inductive SinkOutcome
  | returned
  | raised
  deriving DecidableEq

/-- What has happened to each item, which the worker itself does not keep: every
offer with what `enqueue` answered, the accepted ones, the sink calls begun and
ended, and the items each of the worker's counts is about. -/
structure Ledger where
  offered : List (DeliveryItem × Nat)
  accepted : List DeliveryItem
  begun : List DeliveryItem
  ended : List (DeliveryItem × SinkOutcome)
  written : List DeliveryItem
  failed : List DeliveryItem
  undelivered : List DeliveryItem
  deriving DecidableEq

structure DeliveryWorker where
  maxQueuedBytes : Nat
  queue : List DeliveryItem
  queuedBytes : Nat
  activeItem : Option DeliveryItem
  closing : Bool
  abandoned : Bool
  disabled : Bool
  failures : List DeliveryFailure
  undeliveredByTarget : List UndeliveredBytes
  closeResult : Option DeliveryCloseResult
  stage : WorkerStage
  ledger : Ledger
  deriving DecidableEq

def addToTarget (item : DeliveryItem) : List UndeliveredBytes → List UndeliveredBytes
  | [] => [⟨item.stream, item.bytes, item.diagnostics⟩]
  | entry :: entries =>
      if entry.stream = item.stream ∧ entry.diagnostics = item.diagnostics then
        { entry with byteCount := entry.byteCount + item.bytes } :: entries
      else entry :: addToTarget item entries

/-- Accumulate unconfirmed bytes for the stream and collector they belong to. -/
def accumulate (entries : List UndeliveredBytes) (item : DeliveryItem) :
    List UndeliveredBytes :=
  if item.bytes = 0 then entries else addToTarget item entries

namespace DeliveryWorker

def initial (maxQueuedBytes : Nat) : DeliveryWorker :=
  { maxQueuedBytes
    queue := []
    queuedBytes := 0
    activeItem := none
    closing := false
    abandoned := false
    disabled := false
    failures := []
    undeliveredByTarget := []
    closeResult := none
    stage := .fetching
    ledger := ⟨[], [], [], [], [], [], []⟩ }

def addUndelivered (self : DeliveryWorker) (item : DeliveryItem) : DeliveryWorker :=
  { self with
    undeliveredByTarget := accumulate self.undeliveredByTarget item
    ledger.undelivered := self.ledger.undelivered ++ [item] }

/-- Forget every pending item and account for its bytes as undelivered. -/
def discardQueued (self : DeliveryWorker) : DeliveryWorker :=
  { self.queue.foldl addUndelivered self with queue := [], queuedBytes := 0 }

/-- Queue one write without blocking, or answer with the bytes refused. -/
def enqueue (self : DeliveryWorker) (item : DeliveryItem) : Nat × DeliveryWorker :=
  if self.disabled || self.closing then (0, self.addUndelivered item)
  else if self.maxQueuedBytes < self.queuedBytes + item.bytes then (item.bytes, self)
  else
    (0, { self with
      queue := self.queue ++ [item]
      queuedBytes := self.queuedBytes + item.bytes
      ledger.accepted := self.ledger.accepted ++ [item] })

/-- A call of `enqueue`; with nothing to deliver it offers no item. -/
def offer (self : DeliveryWorker) (stream : EchoStream) (payload : DeliveryPayload)
    (flush : Bool) (diagnostics : Option Nat) : DeliveryWorker :=
  if payload.sourceBytes = 0 ∧ payload.value.isEmpty then self
  else
    let item := ⟨self.ledger.offered.length, stream, payload, flush, diagnostics⟩
    let (answer, self) := self.enqueue item
    { self with ledger.offered := self.ledger.offered ++ [(item, answer)] }

/-- `_next_item`, once its wait is over. -/
def nextItem (self : DeliveryWorker) : DeliveryWorker :=
  match self.queue with
  | [] => { self with stage := .stopped }
  | item :: queue =>
      if self.abandoned then { self with stage := .stopped }
      else
        { self with
          queue
          queuedBytes := self.queuedBytes - item.bytes
          activeItem := some item
          stage := .checking item }

/-- The check that `_deliver` makes before it touches the destination. -/
def checkAbandoned (self : DeliveryWorker) (item : DeliveryItem) : DeliveryWorker :=
  if self.abandoned then { self with stage := .returned item }
  else { self with stage := .cleared item }

def beginWrite (self : DeliveryWorker) (item : DeliveryItem) : DeliveryWorker :=
  { self with
    stage := .writing item
    ledger.begun := self.ledger.begun ++ [item] }

def endWrite (self : DeliveryWorker) (item : DeliveryItem) (outcome : SinkOutcome) :
    DeliveryWorker :=
  { self with
    stage := match outcome with
      | .returned => .returned item
      | .raised => .raised item
    ledger.ended := self.ledger.ended ++ [(item, outcome)] }

/-- The end of the worker's loop body after a write that did not raise. -/
def settleReturned (self : DeliveryWorker) (item : DeliveryItem) : DeliveryWorker :=
  if self.abandoned then { self with activeItem := none, stage := .stopped }
  else
    { self with
      activeItem := none
      stage := .fetching
      ledger.written := self.ledger.written ++ [item] }

/-- The handler of a destination failure. -/
def settleRaised (self : DeliveryWorker) (item : DeliveryItem) : DeliveryWorker :=
  if self.abandoned then { self with stage := .stopped }
  else
    discardQueued { self with
      failures := self.failures ++ [item.failure]
      disabled := true
      activeItem := none
      stage := .stopped
      ledger.failed := self.ledger.failed ++ [item] }

def beginClose (self : DeliveryWorker) : DeliveryWorker :=
  { self with closing := true }

/-- What `close` does after its join, up to its return. -/
def finishClose (self : DeliveryWorker) (alive : Bool) : DeliveryWorker :=
  let self :=
    if alive || self.activeItem.isSome then
      match self.activeItem with
      | none => { self with abandoned := true }
      | some item =>
          { addUndelivered { self with abandoned := true } item with
            activeItem := none }
    else self
  let self := self.discardQueued
  { self with closeResult := some ⟨self.failures, self.undeliveredByTarget⟩ }

/-- The atomic steps of the loop, the worker thread and the closing thread. -/
inductive Step
  | offer (stream : EchoStream) (payload : DeliveryPayload) (flush : Bool)
      (diagnostics : Option Nat)
  | nextItem
  | checkAbandoned
  | beginWrite
  | endWrite (outcome : SinkOutcome)
  | settle
  | beginClose
  | finishClose (alive : Bool)
  deriving DecidableEq

/-- Each step is one critical section or one move of the sink.  The worker's wait
ends when there is an item or a close; the join of `close` ends when the worker
stopped or the grace ran out, and a worker that has not stopped is alive. -/
def next (self : DeliveryWorker) : Step → Option DeliveryWorker
  | .offer stream payload flush diagnostics =>
      some (self.offer stream payload flush diagnostics)
  | .nextItem =>
      if self.stage = .fetching ∧ (self.queue ≠ [] ∨ self.closing) then
        some self.nextItem
      else none
  | .checkAbandoned =>
      match self.stage with
      | .checking item => some (self.checkAbandoned item)
      | _ => none
  | .beginWrite =>
      match self.stage with
      | .cleared item => some (self.beginWrite item)
      | _ => none
  | .endWrite outcome =>
      match self.stage with
      | .writing item => some (self.endWrite item outcome)
      | _ => none
  | .settle =>
      match self.stage with
      | .returned item => some (self.settleReturned item)
      | .raised item => some (self.settleRaised item)
      | _ => none
  | .beginClose => if self.closing then none else some self.beginClose
  | .finishClose alive =>
      if self.closing ∧ self.closeResult = none ∧ (self.stage ≠ .stopped → alive) then
        some (self.finishClose alive)
      else none

/-- The steps of a worker, with what each takes for granted. -/
inductive Moves (self : DeliveryWorker) : DeliveryWorker → Prop
  | offer (stream payload flush diagnostics) :
      Moves self (self.offer stream payload flush diagnostics)
  | nextItem (stage : self.stage = .fetching) : Moves self self.nextItem
  | checkAbandoned (item) (stage : self.stage = .checking item) :
      Moves self (self.checkAbandoned item)
  | beginWrite (item) (stage : self.stage = .cleared item) :
      Moves self (self.beginWrite item)
  | endWrite (item outcome) (stage : self.stage = .writing item) :
      Moves self (self.endWrite item outcome)
  | settleReturned (item) (stage : self.stage = .returned item) :
      Moves self (self.settleReturned item)
  | settleRaised (item) (stage : self.stage = .raised item) :
      Moves self (self.settleRaised item)
  | beginClose (opened : self.closing = false) : Moves self self.beginClose
  | finishClose (alive) (closing : self.closing = true)
      (unfinished : self.closeResult = none)
      (lives : self.stage ≠ .stopped → alive = true) :
      Moves self (self.finishClose alive)

theorem moves_of_next {self after : DeliveryWorker} {step : Step}
    (moved : self.next step = some after) : Moves self after := by
  cases step with
  | offer stream payload flush diagnostics =>
      cases moved
      exact .offer stream payload flush diagnostics
  | nextItem =>
      obtain ⟨⟨stage, _⟩, equal⟩ := Option.ite_none_right_eq_some.mp moved
      cases equal
      exact .nextItem stage
  | checkAbandoned =>
      cases stage : self.stage <;> simp only [next, stage] at moved <;> cases moved
      exact .checkAbandoned _ stage
  | beginWrite =>
      cases stage : self.stage <;> simp only [next, stage] at moved <;> cases moved
      exact .beginWrite _ stage
  | endWrite outcome =>
      cases stage : self.stage <;> simp only [next, stage] at moved <;> cases moved
      exact .endWrite _ outcome stage
  | settle =>
      cases stage : self.stage <;> simp only [next, stage] at moved <;> cases moved
      · exact .settleReturned _ stage
      · exact .settleRaised _ stage
  | beginClose =>
      obtain ⟨opened, equal⟩ := Option.ite_none_left_eq_some.mp moved
      cases equal
      exact .beginClose (by simpa using opened)
  | finishClose alive =>
      obtain ⟨⟨closing, unfinished, lives⟩, equal⟩ :=
        Option.ite_none_right_eq_some.mp moved
      cases equal
      exact .finishClose alive closing unfinished lives

theorem foldl_addUndelivered (self : DeliveryWorker) (items : List DeliveryItem) :
    items.foldl addUndelivered self =
      { self with
        undeliveredByTarget := items.foldl accumulate self.undeliveredByTarget
        ledger.undelivered := self.ledger.undelivered ++ items } := by
  induction items generalizing self with
  | nil => simp
  | cons item items induction =>
      rw [List.foldl_cons, induction]
      simp [addUndelivered]

theorem discardQueued_eq (self : DeliveryWorker) :
    self.discardQueued =
      { self with
        queue := []
        queuedBytes := 0
        undeliveredByTarget := self.queue.foldl accumulate self.undeliveredByTarget
        ledger.undelivered := self.ledger.undelivered ++ self.queue } := by
  rw [discardQueued, foldl_addUndelivered]

/-- Closing hands the item in flight and the queue to the undelivered count. -/
theorem finishClose_eq (self : DeliveryWorker) (alive : Bool) :
    self.finishClose alive =
      let lost := self.activeItem.toList ++ self.queue
      let undeliveredByTarget := lost.foldl accumulate self.undeliveredByTarget
      { self with
        queue := []
        queuedBytes := 0
        activeItem := none
        abandoned := alive || self.activeItem.isSome || self.abandoned
        undeliveredByTarget
        closeResult := some ⟨self.failures, undeliveredByTarget⟩
        ledger.undelivered := self.ledger.undelivered ++ lost } := by
  cases active : self.activeItem with
  | none => cases alive <;> simp [finishClose, active, discardQueued_eq]
  | some item => simp [finishClose, active, discardQueued_eq, addUndelivered]

end DeliveryWorker

open Transition in
def deliverySystem (maxQueuedBytes : Nat) : System DeliveryWorker DeliveryWorker.Step :=
  ⟨.initial maxQueuedBytes, DeliveryWorker.next⟩

end Cuprum.Delivery
