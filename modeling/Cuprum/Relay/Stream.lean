import Cuprum.Effect.Program

namespace Cuprum.Relay

open Effect

/-- What an awaited call raises, as the handlers of the pump tell it apart. -/
inductive Raised
  | cancelled
  | brokenPipe
  | connectionReset
  | attribute
  | notImplemented
  | timeout
  | other (code : Nat)
  deriving DecidableEq, Repr

/-- `BrokenPipeError` and `ConnectionResetError`. -/
def Raised.isClosedPipe : Raised → Bool
  | .brokenPipe | .connectionReset => true
  | .cancelled | .attribute | .notImplemented | .timeout | .other _ => false

def Raised.isSuppressed : Raised → Bool
  | .attribute | .notImplemented | .brokenPipe | .connectionReset => true
  | .cancelled | .timeout | .other _ => false

inductive StreamOperation
  | drain
  | pipelineTransfer
  deriving DecidableEq, Repr

inductive StreamOperationOutcome
  | eof
  | cancelled
  | failed
  | downstreamClosed
  | postCloseDrainTimeout
  deriving DecidableEq, Repr

structure StreamOperationEvent where
  operation : StreamOperation
  outcome : StreamOperationOutcome
  bytesConsumed : Nat
  readOperations : Nat
  duration : Int
  execId : Option Nat
  deriving DecidableEq, Repr

structure StreamOperationMeasurement where
  operation : StreamOperation
  started : Int
  execId : Option Nat
  bytesConsumed : Nat := 0
  readOperations : Nat := 0
  deriving DecidableEq, Repr

/-- A measurement is started only where a hook has opted in. -/
def startStreamOperation (operation : StreamOperation) (hooked : Bool) (clock : Int)
    (execId : Option Nat) : Option StreamOperationMeasurement :=
  if hooked then some { operation, started := clock, execId } else none

def StreamOperationMeasurement.recordRead (self : StreamOperationMeasurement)
    (chunk : List UInt8) : StreamOperationMeasurement :=
  { self with
    readOperations := self.readOperations + 1
    bytesConsumed := self.bytesConsumed + chunk.length }

def StreamOperationMeasurement.event (self : StreamOperationMeasurement) (clock : Int)
    (outcome : StreamOperationOutcome) : StreamOperationEvent where
  operation := self.operation
  outcome := outcome
  bytesConsumed := self.bytesConsumed
  readOperations := self.readOperations
  duration := clock - self.started
  execId := self.execId

inductive CloseOperation
  | writeEof
  | close
  | waitClosed
  deriving DecidableEq, Repr

/-- What a pump does.  `failed` is a read that raised, `refused` a write or a drain that
reported a closed downstream, `expired` the end of the drain window. -/
inductive Deed
  | read (chunk : List UInt8)
  | failed (error : Raised)
  | wrote (chunk : List UInt8)
  | refused
  | expired
  | downstreamClosed (discardedBytes : Nat)
  | closed
  | suppressed (operation : CloseOperation) (error : Raised)
  | completed (event : StreamOperationEvent)
  deriving DecidableEq, Repr

/-- The measurement, absent where no hook had opted in, and the locals of the
coroutines. -/
structure Transfer where
  measurement : Option StreamOperationMeasurement
  outcome : StreamOperationOutcome := .eof
  discardedBytes : Nat := 0
  deeds : List Deed := []
  deriving DecidableEq, Repr

inductive WriteOutcome
  | opened
  | closed
  deriving DecidableEq, Repr

structure WriteReply where
  write : Option Raised := none
  drain : Option Raised := none
  deriving DecidableEq, Repr

/-- What the outside answers a pump.  An exhausted reader is at its end, an exhausted
writer accepts, and the drain window closes after so many reads, if it does. -/
structure Replies where
  hasReader : Bool := true
  hasWriter : Bool := true
  reads : List (Except Raised (List UInt8)) := []
  writes : List WriteReply := []
  window : Option Nat := none
  writeEof : Option Raised := none
  close : Option Raised := none
  waitClosed : Option (Option Raised) := some none
  clock : Int := 0

abbrev Step (α : Type) := Program Transfer Raised α

def note (deed : Deed) : Step Unit :=
  modify fun transfer => { transfer with deeds := transfer.deeds ++ [deed] }

def recordStreamRead (chunk : List UInt8) : Step Unit :=
  modify fun transfer =>
    { transfer with measurement := transfer.measurement.map (·.recordRead chunk) }

def takeRead (reply : Except Raised (List UInt8)) : Step (List UInt8) :=
  match reply with
  | .error error => do
      note (.failed error)
      throw error
  | .ok chunk => do
      note (.read chunk)
      recordStreamRead chunk
      pure chunk

def writeToStreamWriter (chunk : List UInt8) (reply : WriteReply) : Step WriteOutcome :=
  tryCatch
    (do
      note (.wrote chunk)
      attempt reply.write
      attempt reply.drain
      pure .opened)
    fun error =>
      if error.isClosedPipe then do
        note .refused
        pure .closed
      else throw error

/-- Without a window this is `_drain_stream_reader`; a window that closes raises what
`asyncio.wait_for` does. -/
def drainStreamReader : Option Nat → List (Except Raised (List UInt8)) → Step Unit
  | some 0, _ => do
      note .expired
      throw .timeout
  | none, [] | some (_ + 1), [] => do
      let _ ← takeRead (.ok [])
  | none, reply :: rest => do
      let chunk ← takeRead reply
      if chunk.isEmpty then pure ()
      else
        modify fun transfer =>
          { transfer with discardedBytes := transfer.discardedBytes + chunk.length }
        drainStreamReader none rest
  | some (left + 1), reply :: rest => do
      let chunk ← takeRead reply
      if chunk.isEmpty then pure ()
      else
        modify fun transfer =>
          { transfer with discardedBytes := transfer.discardedBytes + chunk.length }
        drainStreamReader (some left) rest

/-- Whether the drain timed out. -/
def drainStreamReaderBoundedResult (window : Option Nat)
    (reads : List (Except Raised (List UInt8))) : Step Bool :=
  tryCatch
    (do
      drainStreamReader window reads
      pure false)
    fun error => if error = .timeout then pure true else throw error

def drainAfterClose (window : Option Nat) (reads : List (Except Raised (List UInt8))) :
    Step StreamOperationOutcome := do
  let timedOut ← drainStreamReaderBoundedResult window reads
  note (.downstreamClosed (← get).discardedBytes)
  if timedOut then pure .postCloseDrainTimeout else pure .downstreamClosed

def relayToWriter (window : Option Nat) :
    List WriteReply → List (Except Raised (List UInt8)) → Step StreamOperationOutcome
  | _, [] => do
      let _ ← takeRead (.ok [])
      pure .eof
  | writes, reply :: rest => do
      let chunk ← takeRead reply
      if chunk.isEmpty then pure .eof
      else
        match ← writeToStreamWriter chunk (writes.headD {}) with
        | .closed => drainAfterClose window rest
        | .opened => relayToWriter window writes.tail rest

def relayChunks (replies : Replies) : Step StreamOperationOutcome :=
  if replies.hasWriter then relayToWriter replies.window replies.writes replies.reads
  else do
    drainStreamReader none replies.reads
    pure .eof

def suppressing (operation : CloseOperation) (suppresses : Raised → Bool) (call : Step Unit) :
    Step Bool :=
  tryCatch
    (do
      call
      pure true)
    fun error =>
      if suppresses error then do
        note (.suppressed operation error)
        pure false
      else throw error

def closeStreamWriter (replies : Replies) : Step Unit :=
  if replies.hasWriter then do
    let _ ← suppressing .writeEof Raised.isSuppressed (attempt replies.writeEof)
    let closed ← suppressing .close Raised.isClosedPipe do
      note .closed
      attempt replies.close
    if closed then
      match replies.waitClosed with
      | none => pure ()
      | some answer => do
          let _ ← suppressing .waitClosed Raised.isSuppressed (attempt answer)
    else pure ()
  else pure ()

def completeStreamOperation (clock : Int) : Step Unit := do
  let transfer ← get
  match transfer.measurement with
  | none => pure ()
  | some measurement => note (.completed (measurement.event clock transfer.outcome))

def assign (outcome : StreamOperationOutcome) : Step Unit :=
  modify fun transfer => { transfer with outcome }

def pumpStream (replies : Replies) : Step Unit :=
  tryFinally
    (tryCatch
      (tryFinally
        (do
          if replies.hasReader then
            let outcome ← relayChunks replies
            assign outcome
          else pure ())
        (closeStreamWriter replies))
      fun error => do
        assign (if error = .cancelled then .cancelled else .failed)
        throw error)
    (completeStreamOperation replies.clock)

end Cuprum.Relay
