import Mathlib.Logic.Function.Basic
import Cuprum.LineStream.Publisher
import Cuprum.Transition.System

namespace Cuprum.LineStream

open Cuprum.Transition

def lineQueueCapacity : Nat := 256

/-- The result is the last item of the queue, and ends the iteration. -/
inductive QueueItem
  | line (event : LineEvent)
  | result
  deriving DecidableEq

/-- Where the coordinator stands; `posting` awaits `queue.put(result)`. -/
inductive Coordinator
  | starting
  | awaitingExit
  | collecting
  | tearingDown (error : Raised)
  | assembling
  | posting
  | ended (raised : Option Raised)
  deriving DecidableEq

inductive ResultFuture
  | pending
  | result
  | failed (error : Raised)
  deriving DecidableEq

/-- The task around `queue.get()`. -/
inductive Getter
  | absent
  | waiting
  | got (item : QueueItem)
  | cancelling
  | cancelled
  deriving DecidableEq

/-- The iterator: between pulls, in one of the awaits of `_next_queue_item`, or at its
end. -/
inductive Iterator
  | idle
  | pulling
  | awaitingGetter
  | raising (error : Raised)
  | completed
  | failed (error : Raised)
  | closing
  deriving DecidableEq

/-- One `lines()` iteration.  `accepted` is every line put in the queue, in order. -/
structure State where
  queue : List QueueItem := []
  settling : Bool := false
  spawned : Bool := false
  publishers : StreamName → Publisher := fun _ => {}
  coordinator : Coordinator := .starting
  future : ResultFuture := .pending
  getter : Getter := .waiting
  iterator : Iterator := .pulling
  accepted : List LineEvent := []
  yielded : List LineEvent := []

inductive Event
  | reader (stream : StreamName) (event : PublisherEvent)
  | spawned (startHook : Option Raised)
  | exited
  | readerFailed (stream : StreamName)
  | gathered
  | broken (error : Raised)
  | tornDown (worse : Option Raised)
  | assembled
  | post
  | pull
  | get
  | dropGet
  | wake
  | receive
  | raise
  | cancelPull
  | close
  deriving DecidableEq

def Getter.cancel : Getter → Getter
  | waiting => cancelling
  | getter => getter

def Getter.isOver : Getter → Bool
  | waiting | cancelling => false
  | _ => true

/-- The iteration has ended, or the caller has closed it. -/
def Iterator.isTearingDown : Iterator → Bool
  | completed | failed _ | closing => true
  | _ => false

namespace State

def room (state : State) : Bool :=
  state.queue.length < lineQueueCapacity

def enqueue (state : State) (line : Option LineEvent) : State :=
  { state with
    queue := state.queue ++ line.toList.map .line
    accepted := state.accepted ++ line.toList }

def read (state : State) (stream : StreamName) (after : Publisher)
    (line : Option LineEvent) : State :=
  { state.enqueue line with publishers := Function.update state.publishers stream after }

/-- `_coordinate_line_stream` and `_drive_line_stream` publish every failure but a
cancellation, which they take for the iterator's own teardown. -/
def conclude (state : State) (error : Raised) : State :=
  { state with
    coordinator := .ended (some error)
    future :=
      match error, state.future with
      | .error name, .pending => .failed (.error name)
      | _, future => future }

def tearDown (state : State) (error : Raised) : State :=
  { state with settling := true, coordinator := .tearingDown error }

/-- The readers have all ended and none has failed: a reader that was cancelled makes
the gather raise its cancellation. -/
def gathered (state : State) : Option State :=
  match (state.publishers .stdout).reader, (state.publishers .stderr).reader with
  | .ended none, .ended none => some { state with coordinator := .assembling }
  | .ended (some .cancelled), .ended none
  | .ended none, .ended (some .cancelled)
  | .ended (some .cancelled), .ended (some .cancelled) => some (state.tearDown .cancelled)
  | _, _ => none

def consume (state : State) : QueueItem → State
  | .line event =>
      { state with
        yielded := state.yielded ++ [event]
        getter := .absent
        iterator := .idle }
  | .result => { state with getter := .absent, iterator := .completed }

/-- The race of the getter against the future is over. -/
def wake (state : State) : Option State :=
  match state.future, state.getter with
  | .failed error, getter =>
      some { state with getter := getter.cancel, iterator := .raising error }
  | _, .got item => some (state.consume item)
  | .result, _ => some { state with iterator := .awaitingGetter }
  | .pending, _ => none

def next (state : State) : Event → Option State
  | .reader stream event =>
      if state.spawned then
        ((state.publishers stream).next stream state.settling state.room event).map
          fun (after, line) => state.read stream after line
      else
        none
  | .spawned startHook =>
      if state.coordinator = .starting then
        match startHook with
        | none => some { state with spawned := true, coordinator := .awaitingExit }
        | some error => some ({ state with spawned := true }.tearDown error)
      else
        none
  | .exited =>
      if state.coordinator = .awaitingExit then
        some { state with coordinator := .collecting }
      else
        none
  | .readerFailed stream =>
      match (state.publishers stream).reader with
      | .ended (some (.error name)) =>
          if state.coordinator = .collecting then
            some (state.tearDown (.error name))
          else
            none
      | _ => none
  | .gathered =>
      if state.coordinator = .collecting then state.gathered else none
  | .broken error =>
      match state.coordinator with
      | .starting | .assembling | .posting => some (state.conclude error)
      | .awaitingExit | .collecting => some (state.tearDown error)
      | .tearingDown _ | .ended _ => none
  | .tornDown worse =>
      match state.coordinator with
      | .tearingDown error => some (state.conclude (worse.getD error))
      | _ => none
  | .assembled =>
      if state.coordinator = .assembling then
        some { state with coordinator := .posting }
      else
        none
  | .post =>
      if state.coordinator = .posting ∧ state.room then
        some { state with
          queue := state.queue ++ [.result]
          future := .result
          coordinator := .ended none }
      else
        none
  | .pull =>
      if state.iterator = .idle then
        some { state with getter := .waiting, iterator := .pulling }
      else
        none
  | .get =>
      match state.getter, state.queue with
      | .waiting, item :: rest => some { state with getter := .got item, queue := rest }
      | _, _ => none
  | .dropGet =>
      if state.getter = .cancelling then
        some { state with getter := .cancelled }
      else
        none
  | .wake => if state.iterator = .pulling then state.wake else none
  | .receive =>
      match state.iterator, state.getter with
      | .awaitingGetter, .got item => some (state.consume item)
      | _, _ => none
  | .raise =>
      match state.iterator with
      | .raising error =>
          if state.getter.isOver then some { state with iterator := .failed error } else none
      | _ => none
  | .cancelPull =>
      match state.iterator with
      | .pulling | .awaitingGetter | .raising _ =>
          some { state with getter := state.getter.cancel, iterator := .closing }
      | _ => none
  | .close =>
      if state.iterator = .idle then some { state with iterator := .closing } else none

end State

/-- The first pull starts the run. -/
def iteration : System State Event := ⟨{}, State.next⟩

end Cuprum.LineStream
