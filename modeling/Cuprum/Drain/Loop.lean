import Cuprum.Drain.Echo
import Cuprum.Effect.Coupled
import Cuprum.Relay.Stream

namespace Cuprum.Drain

open Effect
open Relay (StreamOperationEvent StreamOperationMeasurement StreamOperationOutcome)

variable {κ ρ φ π η : Type}

/-- What a drain requires of an accumulator: its storage answers an absorb with a `ρ`
and the finalization with a `φ`. -/
structure CaptureSink (κ ρ φ π : Type) where
  absorb : List UInt8 → ρ → Program κ Raised Unit
  finalize : φ → Program κ Raised π

/-- The line publisher of an observed stream, which owns its decoder. -/
structure LinePublisher (η : Type) where
  feedDecoder : List UInt8 → Program η Raised Unit
  finish : Program η Raised Unit

/-- How one stream is drained.  The two events are as a cancelled drain finds them. -/
structure StreamConfig (κ ρ φ π η : Type) where
  echo : EchoConfig
  echoOutput : Bool
  captureSink : Option (CaptureSink κ ρ φ π)
  lines : Option (LinePublisher η)
  discardOnCancel : Bool
  settlementStarted : Bool
  /-- What the hooks raise at the completion of the measurement. -/
  streamHook : StreamOperationEvent → Option Raised
  clock : Int

/-- One read, with what the storage answers while its chunk is absorbed. -/
structure StreamRead (ρ : Type) where
  reply : Except Raised (List UInt8)
  absorbing : ρ

/-- All of a drain but its echo. -/
structure Capturing (κ η : Type) where
  capture : κ
  lines : η
  activity : Nat := 0
  measurement : Option StreamOperationMeasurement
  completed : List StreamOperationEvent := []

structure DrainState (echo : EchoConfig) (κ η : Type) where
  echo : EchoState echo
  capturing : Capturing κ η

section

variable {echo : EchoConfig}

abbrev DrainStep (echo : EchoConfig) (κ η α : Type) :=
  Program (DrainState echo κ η) Raised α

def onEcho {α : Type} (program : EchoStep echo α) : DrainStep echo κ η α :=
  zoom DrainState.echo (fun part state => { state with echo := part }) program

def onCapturing {α : Type} (program : Program (Capturing κ η) Raised α) :
    DrainStep echo κ η α :=
  zoom DrainState.capturing (fun part state => { state with capturing := part }) program

def onCapture {α : Type} (program : Program κ Raised α) :
    Program (Capturing κ η) Raised α :=
  zoom Capturing.capture (fun part state => { state with capture := part }) program

def onLines {α : Type} (program : Program η Raised α) : Program (Capturing κ η) Raised α :=
  zoom Capturing.lines (fun part state => { state with lines := part }) program

end

def recordStreamRead (chunk : List UInt8) : Program (Capturing κ η) Raised Unit :=
  modify fun state => { state with measurement := state.measurement.map (·.recordRead chunk) }

def noteStreamActivity : Program (Capturing κ η) Raised Unit :=
  modify fun state => { state with activity := state.activity + 1 }

variable (config : StreamConfig κ ρ φ π η)

def completeStreamOperation (outcome : StreamOperationOutcome) :
    Program (Capturing κ η) Raised Unit := do
  match (← get).measurement with
  | none => pure ()
  | some measurement => do
      let event := measurement.event config.clock outcome
      modify fun state => { state with completed := state.completed ++ [event] }
      attempt (config.streamHook event)

/-- Whether the absorb was left to finish. -/
def absorbIntoCapture (chunk : List UInt8) (absorbing : ρ) :
    Program (Capturing κ η) Raised Bool :=
  match config.captureSink with
  | none => pure true
  | some sink =>
      tryCatch
        (do
          onCapture (sink.absorb chunk absorbing)
          pure true)
        fun error => if error = .cancelled then pure false else throw error

def mirrorChunk (chunk : List UInt8) : DrainStep config.echo κ η Unit :=
  if config.echoOutput then onEcho (echoChunk chunk) else pure ()

def fanOutChunk (chunk : List UInt8) : DrainStep config.echo κ η Unit := do
  mirrorChunk config chunk
  match config.lines with
  | none => pure ()
  | some publisher => onCapturing (onLines (publisher.feedDecoder chunk))

def deliverChunk (chunk : List UInt8) (absorbing : ρ) : DrainStep config.echo κ η Bool := do
  onCapturing noteStreamActivity
  if ← onCapturing (absorbIntoCapture config chunk absorbing) then
    fanOutChunk config chunk
    pure true
  else pure false

/-- Whether the end of the stream was reached; an exhausted reader is there. -/
def drainChunks : List (StreamRead ρ) → DrainStep config.echo κ η Bool
  | [] => do
      onCapturing (recordStreamRead [])
      pure true
  | read :: reads =>
      match read.reply with
      | .error error => if error = .cancelled then pure false else throw error
      | .ok chunk => do
          onCapturing (recordStreamRead chunk)
          if chunk.isEmpty then pure true
          else if ← deliverChunk config chunk read.absorbing then drainChunks reads
          else pure false

/-- `_finalize`; without an accumulator there is nothing to report. -/
def finalizeCapture (finalizing : φ) : Program (Capturing κ η) Raised (Option π) :=
  match config.captureSink with
  | none => pure none
  | some sink => onCapture (some <$> sink.finalize finalizing)

def flushEcho : DrainStep config.echo κ η Unit :=
  if config.echoOutput then onEcho flushEchoDecoder else pure ()

def finishDrain (reachedEof : Bool) (finalizing : φ) :
    DrainStep config.echo κ η (Option π) :=
  if reachedEof then do
    flushEcho config
    let captured ← onCapturing (finalizeCapture config finalizing)
    onCapturing (completeStreamOperation config .eof)
    pure captured
  else do
    onCapturing (completeStreamOperation config .cancelled)
    if config.captureSink.isNone || config.discardOnCancel then throw .cancelled
    else do
      flushEcho config
      onCapturing (finalizeCapture config finalizing)

/-- What the body of `_drain` returns, if the end of the stream was reached. -/
def drainToEnd (reads : List (StreamRead ρ)) (finalizing : φ) :
    DrainStep config.echo κ η (Option (Option π)) :=
  tryCatch
    (do
      if ← drainChunks config reads then
        let captured ← finishDrain config true finalizing
        pure (some captured)
      else pure none)
    fun error => do
      onCapturing (completeStreamOperation config
        (if error = .cancelled then .cancelled else .failed))
      throw error

def drain (reads : List (StreamRead ρ)) (finalizing : φ) :
    DrainStep config.echo κ η (Option π) := do
  match ← drainToEnd config reads finalizing with
  | some captured => pure captured
  | none => finishDrain config false finalizing

end Cuprum.Drain
