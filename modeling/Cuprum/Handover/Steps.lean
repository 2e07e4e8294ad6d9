import Mathlib.Data.List.Infix
import Cuprum.Transition.System

namespace Cuprum.Handover

open Transition (System)

variable {α : Type}

/-- Where the pump of a hop stands. -/
inductive Phase
  | dispatching
  | paused
  | settled
  | draining
  | drained
  | working
  | pumping
  | relaying
  | closing
  | closed
  deriving DecidableEq, Repr

/-- asyncio's reader takes in what its descriptor yields, unless it is paused and the
callbacks queued before the pause have run. -/
def Phase.reads : Phase → Bool
  | .dispatching | .paused | .pumping | .relaying | .closing => true
  | .settled | .draining | .drained | .working | .closed => false

/-- A hop between two stages: what the upstream's pipe will still yield, what asyncio's
reader and its writer transport hold, what the native worker has read and not written,
and what has come to the downstream's pipe. -/
structure Hop (α : Type) where
  phase : Phase := .dispatching
  unread : List α
  buffered : List α
  unflushed : List α := []
  carried : List α := []
  arrived : List α := []
  readerClosed : Bool := false
  downstreamClosed : Bool := false
  failed : Bool := false
  deriving DecidableEq, Repr

/-- What happens next: the reader transport's callbacks, the pump's own steps, the native
worker's, those of the writer transport, and what comes from outside.  Where a write
may take a part only, the event says how much. -/
inductive Event (α : Type)
  | feed (count : Nat)
  | eof
  | pause
  | settle
  | deliver (accepted : Nat)
  | drain
  | handOff (named : List α)
  | decline
  | read (count : Nat)
  | write (count : Nat)
  | finish
  | relay (count : Nat) (accepted : Nat)
  | relayed
  | relayEof
  | flush (count : Nat)
  | close
  | giveUp
  | closeDownstream
  | fail
  deriving Repr

namespace Hop

variable (hop : Hop α)

/-- `transport.write`: the pipe takes some of it at once if nothing waits before it. -/
def transportWrite (data : List α) (accepted : Nat) : Hop α :=
  if hop.downstreamClosed then hop
  else if hop.unflushed = [] then
    { hop with
      arrived := hop.arrived ++ data.take accepted
      unflushed := data.drop accepted }
  else { hop with unflushed := hop.unflushed ++ data }

def workerWrite (count : Nat) : Hop α :=
  if hop.downstreamClosed then { hop with carried := [] }
  else { hop with
    arrived := hop.arrived ++ hop.carried.take count
    carried := hop.carried.drop count }

/-- `drain` returns below the transport's water mark, and raises on a closed pipe; the
pump goes on from either. -/
def drainReturns (mark : Nat) : Bool :=
  hop.downstreamClosed || decide (hop.unflushed.length ≤ mark)

/-- What the number of the reader's descriptor names: what its transport has left to
read, or another file's content once the transport has closed it. -/
def reopened (named : List α) : List α :=
  if hop.readerClosed then named else hop.unread

end Hop

section System

variable (mark : Nat)

def next (hop : Hop α) : Event α → Option (Hop α)
  | .feed count =>
      if hop.phase.reads && !hop.readerClosed then
        some { hop with
          buffered := hop.buffered ++ hop.unread.take count
          unread := hop.unread.drop count }
      else none
  | .eof =>
      if hop.phase.reads && !hop.readerClosed && hop.unread.isEmpty then
        some { hop with readerClosed := true }
      else none
  | .pause =>
      if hop.phase = .dispatching && !hop.readerClosed then some { hop with phase := .paused }
      else none
  | .settle => if hop.phase = .paused then some { hop with phase := .settled } else none
  | .deliver accepted =>
      if hop.phase = .settled then
        if hop.buffered.isEmpty then some { hop with phase := .drained }
        else some { hop.transportWrite hop.buffered accepted with phase := .draining }
      else none
  | .drain =>
      if hop.phase = .draining && hop.drainReturns mark then
        some { hop with phase := .drained, buffered := [] }
      else none
  | .handOff named =>
      if hop.phase = .drained then
        some { hop with phase := .working, unread := hop.reopened named }
      else none
  | .decline =>
      if hop.phase = .dispatching || hop.phase = .drained then some { hop with phase := .pumping }
      else none
  | .read count =>
      if hop.phase = .working && hop.carried.isEmpty then
        some { hop with carried := hop.unread.take count, unread := hop.unread.drop count }
      else none
  | .write count => if hop.phase = .working then some (hop.workerWrite count) else none
  | .finish =>
      if hop.phase = .working && hop.carried.isEmpty && hop.unread.isEmpty then
        some { hop with phase := .closing }
      else none
  | .relay count accepted =>
      if hop.phase = .pumping && !hop.buffered.isEmpty then
        some { hop.transportWrite (hop.buffered.take count) accepted with
          phase := .relaying
          buffered := hop.buffered.drop count }
      else none
  | .relayed =>
      if hop.phase = .relaying && hop.drainReturns mark then some { hop with phase := .pumping }
      else none
  | .relayEof =>
      if hop.phase = .pumping && hop.buffered.isEmpty && hop.readerClosed then
        some { hop with phase := .closing }
      else none
  | .flush count =>
      if hop.downstreamClosed then none
      else some { hop with
        arrived := hop.arrived ++ hop.unflushed.take count
        unflushed := hop.unflushed.drop count }
  | .close =>
      if hop.phase = .closing && hop.unflushed.isEmpty then some { hop with phase := .closed }
      else none
  | .giveUp =>
      if hop.phase = .pumping && hop.downstreamClosed then some { hop with phase := .closing }
      else none
  | .closeDownstream => some { hop with downstreamClosed := true, unflushed := [] }
  | .fail =>
      if hop.phase = .closed then none
      else some { hop with
        failed := true
        phase := if hop.phase = .working then .working else .closing }

/-- A hop with its upstream's bytes, some of them in asyncio's hands already. -/
def pump (unread buffered : List α) : System (Hop α) (Event α) where
  initial := { unread, buffered }
  next := next mark

end System

end Cuprum.Handover
