import Cuprum.BoundedEcho.Drain
import Cuprum.Effect.Program

namespace Cuprum.Drain

open Effect Echo Text
open BoundedEcho (EchoErrorCategory EchoEvent)

inductive Raised
  | cancelled
  | unicodeEncode
  | unicodeDecode
  | brokenPipe
  | other (code : Nat)
  deriving DecidableEq, Repr

/-- What reaches an echo's destination: calls on a byte buffer, or on a text sink. -/
inductive SinkCall
  | bufferWrite (chunk : List UInt8)
  | bufferFlush
  | write (text : List CodePoint)
  | flush
  deriving DecidableEq

/-- The decoder of a text sink's view; a decode that raises has no result. -/
structure IncrementalDecoder where
  State : Type
  start : State
  decode : State → List UInt8 → Bool → Option (List CodePoint × State)

inductive DeliveryValue
  | bytes (value : List UInt8)
  | text (value : List CodePoint)

structure DeliveryPayload where
  value : DeliveryValue
  sourceBytes : Nat

/-- The bound on a mirrored line, with the codec that passed its validation, under an
error policy that raises nothing but a `UnicodeError`. -/
structure EchoBound where
  maxLineBytes : Nat
  codec : BoundedEcho.IncrementalCodec
  heeded : codec.Heeded

/-- The sink, the delivery worker and the echo hooks answer with all they have been
given so far: what the last call raises, and how many of its source bytes a full queue
rejects. -/
structure EchoConfig where
  decoder : IncrementalDecoder
  hasBuffer : Bool
  bestEffort : Bool
  bound : Option EchoBound
  sink : List SinkCall → Option Raised
  delivery : Option (List DeliveryPayload → Nat)
  hook : List EchoEvent → Option Raised

/-- The limiter counts only under a bound, and the mirror only for a run that has one. -/
structure EchoState (config : EchoConfig) where
  decoding : config.decoder.State
  limiter : EchoLineLimiter
  disabled : Bool := false
  midLine : Bool := false
  calls : List SinkCall := []
  queued : List DeliveryPayload := []
  fallbacks : List EchoErrorCategory := []
  events : List EchoEvent := []

def EchoState.initial (config : EchoConfig) : EchoState config where
  decoding := config.decoder.start
  limiter := .initial ((config.bound.map EchoBound.maxLineBytes).getD 0)

section

variable {config : EchoConfig}

abbrev EchoStep (config : EchoConfig) (α : Type) := Program (EchoState config) Raised α

def callSink (call : SinkCall) : EchoStep config Unit := do
  let state ← get
  set { state with calls := state.calls ++ [call] }
  attempt (config.sink (state.calls ++ [call]))

def enqueueDelivery (enqueue : List DeliveryPayload → Nat) (payload : DeliveryPayload) :
    EchoStep config Nat := do
  let state ← get
  set { state with queued := state.queued ++ [payload] }
  pure (enqueue (state.queued ++ [payload]))

def writeChunk (chunk : List UInt8) (final : Bool) (sourceBytes : Option Nat) :
    EchoStep config Nat := do
  let accountedBytes := sourceBytes.getD chunk.length
  if config.hasBuffer then
    match config.delivery with
    | some enqueue => enqueueDelivery enqueue ⟨.bytes chunk, accountedBytes⟩
    | none => do
        callSink (.bufferWrite chunk)
        callSink .bufferFlush
        pure 0
  else
    match config.decoder.decode (← get).decoding chunk final with
    | none => throw .unicodeDecode
    | some (text, decoding) => do
        modify fun state => { state with decoding }
        match config.delivery with
        | some enqueue => enqueueDelivery enqueue ⟨.text text, accountedBytes⟩
        | none => do
            if text.isEmpty then pure () else callSink (.write text)
            callSink .flush
            pure 0

def emitEchoEvent (event : EchoEvent) : EchoStep config Unit := do
  let state ← get
  set { state with events := state.events ++ [event] }
  attempt (config.hook (state.events ++ [event]))

def recordDroppedDelivery (droppedBytes : Nat) : EchoStep config Unit := do
  modify fun state => { state with fallbacks := state.fallbacks ++ [.dropped] }
  emitEchoEvent ⟨.dropped, some droppedBytes⟩

/-- Stop echoing for this drain and report the transition once. -/
def disableEcho (category : EchoErrorCategory) : EchoStep config Bool := do
  modify fun state =>
    { state with disabled := true, fallbacks := state.fallbacks ++ [category] }
  emitEchoEvent ⟨category, none⟩
  pure false

def noteMirror (chunk : List UInt8) : EchoStep config Unit :=
  modify fun state =>
    if chunk.isEmpty then state
    else { state with midLine := chunk.getLast? ≠ some lineFeed }

def echoWrite (chunk : List UInt8) (final : Bool) (sourceBytes : Option Nat) :
    EchoStep config Bool := do
  if (← get).disabled then pure false
  else
    tryCatch
      (do
        let droppedBytes ← writeChunk chunk final sourceBytes
        if droppedBytes ≠ 0 then
          recordDroppedDelivery droppedBytes
          pure false
        else
          noteMirror chunk
          pure true)
      fun error =>
        match error with
        | .unicodeEncode => disableEcho .unicodeEncode
        | .brokenPipe =>
            if config.bestEffort then disableEcho .brokenPipe else throw .brokenPipe
        | error => throw error

/-- A marker that cannot be encoded raises past the guard. -/
def writeFinishedEchoLine (bound : EchoBound) (ending : List UInt8) :
    EchoStep config Unit := do
  match BoundedEcho.finishLine (← get).limiter ending ⟨bound.codec, !config.hasBuffer⟩ with
  | (none, limiter) => do
      modify fun state => { state with limiter }
      throw .unicodeEncode
  | (some finished, limiter) => do
      modify fun state => { state with limiter }
      let wasWritten ← echoWrite finished.payload false (some finished.sourceBytes)
      if wasWritten && finished.droppedBytes != 0 then
        emitEchoEvent ⟨.truncated, some finished.droppedBytes⟩
      else pure ()

def echoBoundedSegment (bound : EchoBound) (segment : List UInt8 × Option (List UInt8)) :
    EchoStep config Unit := do
  modify fun state => { state with limiter := state.limiter.boundLine segment.1 }
  match segment.2 with
  | none => pure ()
  | some ending => writeFinishedEchoLine bound ending

def echoSegments (bound : EchoBound) :
    List (List UInt8 × Option (List UInt8)) → EchoStep config Unit
  | [] => pure ()
  | segment :: segments => do
      echoBoundedSegment bound segment
      echoSegments bound segments

def echoChunk (chunk : List UInt8) : EchoStep config Unit := do
  if (← get).disabled then pure ()
  else
    match config.bound with
    | none => do
        let _ ← echoWrite chunk false none
    | some bound => do
        let (data, limiter) := prependPendingCarriageReturn (← get).limiter chunk
        modify fun state => { state with limiter }
        echoSegments bound (splitEchoSegments [] data)

def flushLastLine (bound : EchoBound) : EchoStep config Unit := do
  modify fun state => { state with limiter := finishPendingCarriageReturn state.limiter }
  if 0 < (← get).limiter.sourceLineBytes then writeFinishedEchoLine bound [] else pure ()

def flushEchoDecoder : EchoStep config Unit := do
  match config.bound with
  | none => pure ()
  | some bound => flushLastLine bound
  if config.hasBuffer then pure ()
  else do
    let _ ← echoWrite [] true none

end

end Cuprum.Drain
