import Cuprum.Effect.Program
import Cuprum.Stdin.Events

namespace Cuprum.Stdin

open Cuprum.Effect Cuprum.Text

/-- The incremental encoder of the run's encoding. -/
structure Codec (κ : Type) where
  build : Except Raised κ
  encode : κ → List CodePoint → Bool → Except Raised (List UInt8 × κ)

/-- What a payload meets on its way: what the write, the drain and the hooks of its
event raise. -/
structure Sending where
  write : Option Raised := none
  drain : Option Raised := none
  observe : Option Raised := none
  deriving DecidableEq

/-- What the pipe meets as it is closed. -/
structure Closing where
  close : Option Raised := none
  wait : Option Raised := none
  abort : Option Raised := none
  observe : Option Raised := none
  deriving DecidableEq

/-- What the producer's iterator has for `aclose`: nothing, an attribute that cannot be
fetched, or a hook, with what it raises on entry and what the two waits for it raise.
Past the first wait it is done or is reclaimed. -/
inductive Finalizer
  | absent
  | unreadable (error : Raised)
  | hook (entry wait : Option Raised) (done : Bool) (reclaim : Option Raised)
  deriving DecidableEq

/-- A producer, with all that befalls the run that streams it: the chunks it yields and
what each meets, how it ends, and what raises on the way out. -/
structure StdinStream where
  start : Option Raised := none
  chunks : List (Chunk × Sending)
  ending : Option Raised := none
  flush : Sending := {}
  report : Option Raised := none
  earlyClose : Option Raised := none
  closing : Closing := {}
  finalizer : Finalizer := .absent
  deriving DecidableEq

inductive Failure
  | raised (error : Raised)
  | producerFailure (cause : Raised)
  | stdinSource (message : String) (cause : Raised)
  deriving DecidableEq

/-- The writer's encoder, once it is built, the boundary it has marked, whether the
producer's iterator exists, and the calls so far. -/
structure StreamSink (κ : Type) where
  encoder : Option κ := none
  chunkError : Option StdioFailureCategory := none
  started : Bool := false
  log : Log := []

variable {κ : Type}

abbrev Writer (κ α : Type) := Program (StreamSink κ) Failure α

def note (event : Event) : Writer κ Unit :=
  modify fun sink => { sink with log := sink.log ++ [event] }

def perform (call : Call) (answer : Option Raised) : Writer κ Unit := do
  note ⟨call, answer⟩
  attempt (answer.map .raised)

def mark (boundary : Option StdioFailureCategory) : Writer κ Unit :=
  modify fun sink => { sink with chunkError := boundary }

variable (codec : Codec κ) (stream : StdinStream)

def encoder : Writer κ κ := do
  match (← get).encoder with
  | some encoder => pure encoder
  | none =>
      match codec.build with
      | .ok encoder =>
          note ⟨.buildEncoder, none⟩
          modify fun sink => { sink with encoder := some encoder }
          pure encoder
      | .error error =>
          note ⟨.buildEncoder, some error⟩
          if error.kind = .lookup then mark (some .encoder)
          throw (.raised error)

/-- The mark is taken back only once the encoder has returned. -/
def encode (text : List CodePoint) (final : Bool) : Writer κ (List UInt8) := do
  let previous := (← get).chunkError
  mark (some .encoder)
  let encoder ← encoder codec
  match codec.encode encoder text final with
  | .ok (payload, after) =>
      note ⟨.encode, none⟩
      modify fun sink => { sink with encoder := some after }
      mark previous
      pure payload
  | .error error =>
      note ⟨.encode, some error⟩
      throw (.raised error)

def invalidChunk (typeName : String) : Raised where
  kind := .other
  name := "TypeError"
  text := "stdin producer yielded " ++ typeName ++ "; chunks must be str or bytes"
  errno := none

/-- Nothing is written, and nothing emitted, for an empty payload. -/
def send (payload : List UInt8) (sending : Sending) : Writer κ Unit := do
  if payload = [] then pure ()
  else
    perform (.write payload) sending.write
    perform .drain sending.drain
    perform (.observe .stdin) sending.observe

def writeChunk (chunk : Chunk) (sending : Sending) : Writer κ Unit := do
  let payload ← match chunk with
    | .text text => encode codec text false
    | .bytes bytes => pure bytes
    | .other typeName => do
        mark (some .invalidChunk)
        note ⟨.reject typeName, some (invalidChunk typeName)⟩
        throw (.raised (invalidChunk typeName))
  send payload sending

def flushEncoder (sending : Sending) : Writer κ Unit := do
  match (← get).encoder with
  | none => pure ()
  | some _ =>
      let tail ← encode codec [] true
      send tail sending

/-- An exception of the producer's code is marked as such; cancellation passes. -/
def fromProducer (program : Writer κ Unit) : Writer κ Unit :=
  tryCatch program fun failure =>
    match failure with
    | .raised error => if error.isException then throw (.producerFailure error) else throw failure
    | _ => throw failure

def startProducer : Writer κ Unit :=
  fromProducer (perform .aiter stream.start)

def pumpChunks (ending : Option Raised) : List (Chunk × Sending) → Writer κ Unit
  | [] => fromProducer (perform (.anext none) ending)
  | (chunk, sending) :: rest => do
      note ⟨.anext (some chunk), none⟩
      writeChunk codec chunk sending
      pumpChunks ending rest

def stdinSourceError (cause : Raised) : Failure :=
  .stdinSource ("stdin producer failed: " ++ cause.name ++ ": " ++ cause.text) cause

/-- What the hooks raise at a diagnostic does not displace what it is about. -/
def reportBoundary (error : Raised) (category : StdioFailureCategory) (operation : String)
    (observe : Option Raised) : Writer κ Unit := do
  note ⟨.report category operation error.name, none⟩
  tryCatch (perform (.observe .stdioError) observe) fun failure =>
    match failure with
    | .raised hooks => if hooks.isSuppressed then pure () else throw failure
    | _ => throw failure

def emitStdinError (error : Raised) (operation : String) (observe : Option Raised) :
    Writer κ Unit := do
  note ⟨.stdinError operation error.name, none⟩
  perform (.observe .stdinError) observe

/-- A failure without a mark is the pipe's own. -/
def writeBoundaryCategory (sink : StreamSink κ) : StdioFailureCategory :=
  sink.chunkError.getD .pipe

/-- The one place where the outcomes of a failure are told apart. -/
def classify : Failure → Writer κ Unit
  | .producerFailure cause => do
      reportBoundary cause .producer "produce" stream.report
      throw (stdinSourceError cause)
  | .raised error => do
      if error.isException then
        if isEarlyClose error then
          emitStdinError error "early_close" stream.earlyClose
        else
          reportBoundary error (writeBoundaryCategory (← get)) "write" stream.report
          throw (stdinSourceError error)
      else throw (.raised error)
  | .stdinSource message cause => throw (.stdinSource message cause)

def abortStdinTransport (answer : Option Raised) : Writer κ Unit :=
  tryCatch (perform .abort answer) fun failure =>
    match failure with
    | .raised error =>
        if error.isOsError ∨ error.kind = .runtime ∨ error.kind = .attribute then pure ()
        else throw failure
    | _ => throw failure

/-- Expiry and cancellation both end the close, by the transport's own release. -/
def closeStdin (closing : Closing) : Writer κ Unit :=
  tryCatch
    (do
      perform .close closing.close
      perform .waitClosed closing.wait)
    fun failure =>
      match failure with
      | .raised error =>
          if error.kind = .timeout then abortStdinTransport closing.abort
          else if error.kind = .cancelled then do
            abortStdinTransport closing.abort
            throw failure
          else if error.isOsError ∨ error.kind = .runtime then
            emitStdinError error "close" closing.observe
          else throw failure
      | _ => throw failure

/-- A finalizer that raises on entry is done with. -/
def finalizeStdinSource (finalizer : Finalizer) : Writer κ Unit := do
  if (← get).started then
    match finalizer with
    | .absent => pure ()
    | .unreadable error => throw (.raised error)
    | .hook entry wait done reclaim =>
        note ⟨.aclose, entry⟩
        match entry with
        | none =>
            perform .finalizerWait wait
            if done then pure () else perform .finalizerReclaim reclaim
        | some error => if error.isException then pure () else throw (.raised error)

def streamChunks : Writer κ Unit := do
  startProducer stream
  modify fun sink => { sink with started := true }
  pumpChunks codec stream.ending stream.chunks
  flushEncoder codec stream.flush

/-- The pipe is released before the producer is finalized, which an interrupted close
does not skip. -/
def drainSourceIntoPipe : Writer κ Unit :=
  tryFinally (tryCatch (streamChunks codec stream) (classify stream))
    (tryFinally (closeStdin stream.closing) (finalizeStdinSource stream.finalizer))

/-- A child without a pipe is not written to. -/
def writeStdinStream (piped : Bool) : Writer κ Unit :=
  if piped then drainSourceIntoPipe codec stream else pure ()

end Cuprum.Stdin
