import Cuprum.Spill.Accumulator
import Cuprum.Transition.System

namespace Cuprum.Spill

open Cuprum.Effect Cuprum.Transition
open Cuprum.Capture (CaptureStreamName DecodeSettings)
open Cuprum.Codec (ByteOrder)

/-- What the drain and the teardown ask of a capture, with what becomes of its calls. -/
inductive Op
  | absorb (chunk : List UInt8) (write : Reply) (spill : SpillReplies)
  | finalize (flush read : Reply)
  | cleanup (close unlink : Answer)

inductive Outcome
  | returned
  | finalized (final : CaptureFinal)
  | raised (error : Raised)

/-- A capture with the bytes it has been handed so far, how its last operation came out,
and what its owner knows: that it was cancelled, that it is cleaning up. -/
structure Session where
  capture : FileAccumulator := {}
  handed : List UInt8 := []
  outcome : Outcome := .returned
  cancelled : Bool := false
  cleaned : Bool := false

def Op.chunk : Op → List UInt8
  | .absorb chunk _ _ => chunk
  | _ => []

def Op.isCleanup : Op → Bool
  | .cleanup .. => true
  | _ => false

section

variable (policy : FileBackedCapture) (stream : CaptureStreamName)
  (settings : DecodeSettings) (byteOrder : ByteOrder)

def Op.program : Op → Capture Outcome
  | .absorb chunk write replies => do
      Spill.absorb policy stream chunk write replies
      pure .returned
  | .finalize flush read => .finalized <$> Spill.finalize stream settings byteOrder flush read
  | .cleanup close unlink => do
      Spill.cleanup close unlink
      pure .returned

def Session.after (session : Session) (op : Op) : Session :=
  match op.program policy stream settings byteOrder session.capture with
  | .ok outcome capture =>
      { session with
        capture := capture
        handed := session.handed ++ op.chunk
        outcome := outcome
        cleaned := session.cleaned || op.isCleanup }
  | .error error capture =>
      { session with
        capture := capture
        handed := session.handed ++ op.chunk
        outcome := .raised error
        cancelled := session.cancelled || error == .cancelled
        cleaned := session.cleaned || op.isCleanup }

/-- Nothing more is absorbed once a cancellation was delivered or the capture is cleaned
up. -/
def Session.permits (session : Session) : Op → Bool
  | .absorb .. => !session.cancelled && !session.cleaned
  | _ => true

def system : System Session Op where
  initial := {}
  next session op :=
    if session.permits op then some (session.after policy stream settings byteOrder op)
    else none

end

/-- An append fails, and its caller never learns of it. -/
def Session.unheard (session : Session) : Op → Bool
  | .absorb _ write _ =>
      session.capture.path.isSome && session.capture.failed.isNone && write.failure.isSome &&
        write.cancelled
  | _ => false

end Cuprum.Spill
