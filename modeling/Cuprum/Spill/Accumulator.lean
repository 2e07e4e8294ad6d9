import Cuprum.Capture.Accumulators
import Cuprum.Effect.Program
import Cuprum.Spill.File

namespace Cuprum.Spill

open Cuprum.Effect
open Cuprum.Capture (CaptureStreamName DecodeSettings Payload render)
open Cuprum.Codec (ByteOrder)

inductive Raised
  | cancelled
  | os (name : String)
  | closedFile
  | undecodable
  deriving DecidableEq

/-- When a cancellation reaches the caller of a worker call. -/
inductive Interruption
  /-- The call still runs. -/
  | during
  /-- The call has come to its end, which its caller has yet to be resumed with. -/
  | after
  deriving DecidableEq

/-- How a worker call comes out, and the last cancellation of its caller. -/
structure Reply extends Answer where
  interruption : Option Interruption := none
  deriving DecidableEq

/-- Whether the caller is left with the cancellation: the failure of the call displaces one
that came before it. -/
def Reply.cancelled (reply : Reply) : Bool :=
  match reply.interruption with
  | none => false
  | some .during => reply.failure.isNone
  | some .after => true

/-- What the caller has asked for; a threshold is positive. -/
structure FileBackedCapture where
  spillThresholdBytes : Option Nat
  keepFile : Bool
  positive : ∀ threshold, spillThresholdBytes = some threshold → 0 < threshold

inductive CaptureEventCategory
  | spilledToFile
  | storageWriteFailed
  | storageFlushFailed
  | storageReadFailed
  deriving DecidableEq

structure CaptureEvent where
  stream : CaptureStreamName
  category : CaptureEventCategory
  totalBytes : Option Nat
  spilledBytes : Nat
  errorType : Option String

inductive Storage
  | memory
  | file
  deriving DecidableEq

/-- What a capture reports of itself; a file is told by its number. -/
structure CapturedStream where
  stream : CaptureStreamName
  totalBytes : Nat
  storage : Storage
  path : Option Nat
  owned : Bool
  storageFailed : Bool

structure CaptureFinal where
  payload : Option Payload
  capture : CapturedStream
  handle : Option Nat

/-- A file this run created, with the handle that is shared by those who may close it. -/
structure SpillHandle where
  file : SpillFile := {}
  keep : Bool := false
  closed : Bool := false
  deriving DecidableEq

/-- The files are those created so far, each under its number. -/
structure FileAccumulator where
  buffer : Option (List UInt8) := some []
  file : Option Nat := none
  handle : Option Nat := none
  provisional : Option Nat := none
  path : Option Nat := none
  total : Nat := 0
  spilledBytes : Nat := 0
  flushedBytes : Nat := 0
  failed : Option String := none
  files : List SpillHandle := []
  events : List CaptureEvent := []

/-- How the calls of a spill come out. -/
structure SpillReplies where
  create : Reply := {}
  write : Reply := {}
  flush : Reply := {}
  discardClose : Reply := {}
  discardUnlink : Reply := {}
  deriving DecidableEq

abbrev Capture (α : Type) := Program FileAccumulator Raised α

namespace FileAccumulator

def onHandle (self : FileAccumulator) (number : Nat) (update : SpillHandle → SpillHandle) :
    FileAccumulator :=
  { self with files := self.files.modify number update }

def onFile (self : FileAccumulator) (number : Nat) (update : SpillFile → SpillFile) :
    FileAccumulator :=
  self.onHandle number fun handle => { handle with file := update handle.file }

end FileAccumulator

/-- `except OSError`. -/
def exceptOsError {α : Type} (program : Capture α) (handler : String → Capture α) :
    Capture α :=
  tryCatch program fun raised =>
    match raised with
    | .os name => handler name
    | _ => throw raised

/-- A call whose worker finishes whatever befalls the caller.  `_settle_shielded` awaits it
with nothing but cancellations suppressed, so that its failure is raised from there. -/
def run {α : Type} (interruption : Option Interruption) (call : Capture α) : Capture α :=
  match interruption with
  | none => call
  | some .during => do
      let _ ← call
      throw .cancelled
  | some .after => shielded (some .cancelled) call

def blocking (number : Nat) (answer : Answer) (update : SpillFile → SpillFile) :
    Capture Unit := do
  modify (FileAccumulator.onFile · number update)
  attempt (answer.failure.map .os)

/-- A file that has been closed can be neither written nor flushed. -/
def whileOpen (number : Nat) (call : Capture Unit) : Capture Unit := do
  match (← get).files[number]? with
  | some handle => if handle.file.closed then throw .closedFile else call
  | none => call

theorem whileOpen_apply (number : Nat) (call : Capture Unit) (capture : FileAccumulator) :
    whileOpen number call capture = (match capture.files[number]? with
      | some handle => if handle.file.closed then throw Raised.closedFile else call
      | none => call) capture :=
  rfl

def fileWrite (number : Nat) (data : List UInt8) (reply : Reply) : Capture Unit :=
  run reply.interruption
    (whileOpen number (blocking number reply.toAnswer (·.write data reply.toAnswer)))

def fileFlush (number : Nat) (reply : Reply) : Capture Unit :=
  run reply.interruption
    (whileOpen number (blocking number reply.toAnswer (·.flush reply.toAnswer)))

def fileClose (number : Nat) (answer : Answer) : Capture Unit :=
  blocking number answer (·.close answer)

def pathUnlink (number : Nat) (answer : Answer) : Capture Unit :=
  blocking number answer SpillFile.unlink

def pathReadBytes (number : Nat) (reply : Reply) : Capture (List UInt8) :=
  run reply.interruption do
    attempt (reply.failure.map .os)
    pure ((← get).files[number]?.elim [] (·.file.disk))

variable (policy : FileBackedCapture) (stream : CaptureStreamName)
  (settings : DecodeSettings) (byteOrder : ByteOrder)

def emitCaptureEvent (event : CaptureEvent) : Capture Unit :=
  modify fun self => { self with events := self.events ++ [event] }

/-- Reporting is where a failure to retain output is absorbed. -/
def failStorage (name : String) (category : CaptureEventCategory) : Capture Unit := do
  modify fun self => { self with failed := some name }
  let self ← get
  emitCaptureEvent ⟨stream, category, some self.total, self.spilledBytes, some name⟩

def adoptSpill (number : Nat) : Capture Unit :=
  modify fun self => { self with handle := some number, provisional := some number }

/-- A file that exists is adopted before a cancellation is raised; a create that fails
leaves none, and is raised in place of a cancellation that came before its failure. -/
def createPublishedSpill (reply : Reply) : Capture Nat := do
  match reply.failure with
  | some name => if reply.cancelled then throw .cancelled else throw (.os name)
  | none =>
      let number := (← get).files.length
      modify fun self => { self with files := self.files ++ [{}] }
      adoptSpill number
      if reply.cancelled then throw .cancelled else pure number

def promoteProvisionalSpill : Capture Unit := do
  match (← get).provisional with
  | none => pure ()
  | some number =>
      modify (FileAccumulator.onHandle · number fun handle =>
        { handle with keep := policy.keepFile })
      modify fun self => { self with provisional := none }

def discardFailedSpill (number : Nat) (name : String) (replies : SpillReplies) :
    Capture Unit := do
  exceptOsError
    (run replies.discardClose.interruption (fileClose number replies.discardClose.toAnswer))
    fun _ => pure ()
  exceptOsError
    (run replies.discardUnlink.interruption (pathUnlink number replies.discardUnlink.toAnswer))
    fun _ => pure ()
  modify fun self =>
    if self.handle = self.provisional then { self with handle := none } else self
  modify fun self => { self with provisional := none }
  failStorage stream name .storageWriteFailed

def shouldSpill (self : FileAccumulator) (buffered : Nat) : Bool :=
  match self.failed with
  | some _ => false
  | none =>
      match policy.spillThresholdBytes with
      | none => true
      | some threshold => threshold < buffered

/-- The prefix has landed: the capture is a file from here on. -/
def adoptPrefix (number : Nat) (buffered : List UInt8) : Capture Unit := do
  modify fun self =>
    { self with
      spilledBytes := buffered.length
      flushedBytes := buffered.length
      file := some number
      path := some number }
  promoteProvisionalSpill policy
  modify fun self => { self with buffer := none }
  emitCaptureEvent ⟨stream, .spilledToFile, none, buffered.length, none⟩

def spill (replies : SpillReplies) : Capture Unit := do
  match (← get).buffer with
  | none => pure ()
  | some buffered =>
      let created ← exceptOsError (some <$> createPublishedSpill replies.create) fun name => do
        failStorage stream name .storageWriteFailed
        pure none
      match created with
      | none => pure ()
      | some number =>
          let written ← exceptOsError
            (do
              fileWrite number buffered replies.write
              fileFlush number replies.flush
              pure true)
            fun name => do
              discardFailedSpill stream number name replies
              pure false
          if written then adoptPrefix policy stream number buffered else pure ()

def append (chunk : List UInt8) (reply : Reply) : Capture Unit := do
  let self ← get
  match self.failed, self.file with
  | none, some number =>
      let written ← exceptOsError
        (do
          fileWrite number chunk reply
          pure true)
        fun name => do
          failStorage stream name .storageWriteFailed
          pure false
      if written then
        modify fun self => { self with spilledBytes := self.spilledBytes + chunk.length }
      else pure ()
  | _, _ => pure ()

def absorb (chunk : List UInt8) (write : Reply) (replies : SpillReplies) : Capture Unit := do
  modify fun self => { self with total := self.total + chunk.length }
  let self ← get
  match self.path, self.buffer with
  | some _, _ => append stream chunk write
  | none, none => pure ()
  | none, some buffered =>
      modify fun self => { self with buffer := some (buffered ++ chunk) }
      if shouldSpill policy self (buffered ++ chunk).length then spill policy stream replies
      else pure ()

def flushBeforeReading (reply : Reply) : Capture Unit := do
  match (← get).file with
  | none => pure ()
  | some number =>
      let flushed ← exceptOsError
        (do
          fileFlush number reply
          pure true)
        fun name => do
          modify fun self => { self with spilledBytes := self.flushedBytes }
          if (← get).failed.isNone then failStorage stream name .storageFlushFailed
          pure false
      if flushed then modify fun self => { self with flushedBytes := self.spilledBytes }
      else pure ()

def readBack (number : Nat) (reply : Reply) : Capture (Option (List UInt8)) :=
  exceptOsError (some <$> pathReadBytes number reply) fun name => do
    failStorage stream name .storageReadFailed
    pure none

def finalizeBuffered : Capture CaptureFinal := do
  let self ← get
  match render byteOrder (self.buffer.getD []) settings with
  | none => throw .undecodable
  | some payload =>
      pure
        { payload := some payload
          capture := ⟨stream, self.total, .memory, none, false, self.failed.isSome⟩
          handle := none }

def finalizeSpilled (number : Nat) (flush read : Reply) : Capture CaptureFinal := do
  flushBeforeReading stream flush
  let payload ← if settings.captureBytes then readBack stream number read else pure none
  let self ← get
  let keep := (self.handle.bind (self.files[·]?)).map (·.keep)
  pure
    { payload := payload.map .bytes
      capture := ⟨stream, self.total, .file, some number, keep = some false,
        self.failed.isSome⟩
      handle := self.handle }

def finalize (flush read : Reply) : Capture CaptureFinal := do
  match (← get).path with
  | some number => finalizeSpilled stream settings number flush read
  | none => finalizeBuffered stream settings byteOrder

/-- Closing is claimed once, and removing is attempted by all who may. -/
def closeHandle (number : Nat) (remove : Bool) (close unlink : Answer) : Capture Unit := do
  match (← get).files[number]? with
  | none => pure ()
  | some handle =>
      if handle.closed then pure ()
      else
        modify (FileAccumulator.onHandle · number fun handle => { handle with closed := true })
        exceptOsError (fileClose number close) fun _ => pure ()
      if remove && !handle.keep then
        exceptOsError (pathUnlink number unlink) fun _ => pure ()
      else pure ()

/-- Every caller shields it as a whole. -/
def cleanup (close unlink : Answer) : Capture Unit := do
  let self ← get
  match self.handle with
  | none => pure ()
  | some number =>
      let keep := (self.files[number]?).elim false (·.keep)
      closeHandle number (!keep) close unlink

end Cuprum.Spill
