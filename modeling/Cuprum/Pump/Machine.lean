import Cuprum.Pump.Io

namespace Cuprum.Pump

structure PumpState where
  totalWritten : Nat
  writerOpen : Bool
  deriving DecidableEq

def PumpState.start : PumpState := ⟨0, true⟩

inductive Transition
  | wrote (event : WriteEvent)
  | drained
  | eof
  deriving DecidableEq

inductive Flow
  | continue
  | stop
  deriving DecidableEq

def applyWrite (state : PumpState) : WriteEvent → PumpState
  | .complete bytes =>
      { state with totalWritten := saturatingAdd state.totalWritten bytes }
  | .closed bytes =>
      ⟨saturatingAdd state.totalWritten bytes, false⟩

def step (state : PumpState) : Transition → PumpState × Flow
  | .eof => (state, .stop)
  | .drained => (state, .continue)
  | .wrote event => (applyWrite state event, .continue)

/-- One iteration.  `writeOnce` is the write this iteration may make; it asks
the kernel nothing unless a chunk was read while the writer is open. -/
def advance (state : PumpState) (readLen : Nat)
    (writeOnce : List WriteReply → Stretch WriteReply WriteEvent)
    (writes : List WriteReply) : Stretch WriteReply (PumpState × Flow) :=
  if readLen = 0 then ⟨.returned (step state .eof), [], writes⟩
  else if state.writerOpen then
    let written := writeOnce writes
    match written.outcome with
    | .returned event =>
        ⟨.returned (step state (.wrote event)), written.log, written.rest⟩
    | .failed error => ⟨.failed error, written.log, written.rest⟩
    | .waiting => ⟨.waiting, written.log, written.rest⟩
  else ⟨.returned (step state .drained), [], writes⟩

def writeChunk (buffer : List UInt8) (readLen : Nat) (writes : List WriteReply) :
    Stretch WriteReply WriteEvent :=
  match bufferPrefix buffer readLen with
  | .ok chunk => classifyWriteWith chunk writes
  | .error error => ⟨.failed error, [], writes⟩

/-- A pump run as far as the answers given to it carry it. -/
structure Pumped where
  outcome : Outcome Nat
  log : List Event
  reads : List ReadReply
  writes : List WriteReply

def Pumped.afterAll (run : Pumped) (log : List Event) : Pumped :=
  { run with log := log ++ run.log }

@[simp] theorem Pumped.afterAll_log (run : Pumped) (log : List Event) :
    (run.afterAll log).log = log ++ run.log := rfl

@[simp] theorem Pumped.afterAll_reads (run : Pumped) (log : List Event) :
    (run.afterAll log).reads = run.reads := rfl

@[simp] theorem Pumped.afterAll_writes (run : Pumped) (log : List Event) :
    (run.afterAll log).writes = run.writes := rfl

theorem readRawFdWith_rest_length {capacity : Nat} {replies : List ReadReply}
    {bytes : List UInt8}
    (returned : (readRawFdWith capacity replies).outcome = .returned bytes) :
    (readRawFdWith capacity replies).rest.length < replies.length := by
  induction replies using readRawFdWith.induct capacity with
  | case1 => cases returned
  | case2 data replies count valid => simp [readRawFdWith, valid]
  | case3 data replies kind invalid => simp [readRawFdWith, invalid]
  | case4 replies induction =>
      simp only [readRawFdWith, Stretch.after_outcome] at returned
      have shorter := induction returned
      simp only [readRawFdWith, Stretch.after_rest, List.length_cons]
      omega
  | case5 kind replies other =>
      simp [readRawFdWith]

/-- The loop of the pump: read a chunk, let `advance` write it, stop at the end
of the input. -/
def pumpLoop (buffer : List UInt8) (state : PumpState) (reads : List ReadReply)
    (writes : List WriteReply) : Pumped :=
  let filled := readRawFdWith buffer.length reads
  match _ : filled.outcome with
  | .waiting => ⟨.waiting, filled.log, filled.rest, writes⟩
  | .failed error => ⟨.failed error, filled.log, filled.rest, writes⟩
  | .returned bytes =>
      let readInto := overwrite buffer bytes
      let advanced := advance state bytes.length (writeChunk readInto bytes.length) writes
      let made := filled.log ++ advanced.log
      match advanced.outcome with
      | .waiting => ⟨.waiting, made, filled.rest, advanced.rest⟩
      | .failed error => ⟨.failed error, made, filled.rest, advanced.rest⟩
      | .returned (after, .stop) =>
          ⟨.returned after.totalWritten, made, filled.rest, advanced.rest⟩
      | .returned (after, .continue) =>
          (pumpLoop readInto after filled.rest advanced.rest).afterAll made
termination_by reads.length
decreasing_by exact readRawFdWith_rest_length ‹_›

theorem pumpLoop_eq (buffer : List UInt8) (state : PumpState)
    (reads : List ReadReply) (writes : List WriteReply) :
    pumpLoop buffer state reads writes =
      let filled := readRawFdWith buffer.length reads
      match filled.outcome with
      | .waiting => ⟨.waiting, filled.log, filled.rest, writes⟩
      | .failed error => ⟨.failed error, filled.log, filled.rest, writes⟩
      | .returned bytes =>
          let readInto := overwrite buffer bytes
          let advanced :=
            advance state bytes.length (writeChunk readInto bytes.length) writes
          let made := filled.log ++ advanced.log
          match advanced.outcome with
          | .waiting => ⟨.waiting, made, filled.rest, advanced.rest⟩
          | .failed error => ⟨.failed error, made, filled.rest, advanced.rest⟩
          | .returned (after, .stop) =>
              ⟨.returned after.totalWritten, made, filled.rest, advanced.rest⟩
          | .returned (after, .continue) =>
              (pumpLoop readInto after filled.rest advanced.rest).afterAll made := by
  rw [pumpLoop]
  split <;> rename_i ending <;> simp only [ending]

def pumpStreamWithIo (reserve : Nat → Bool) (size : Streams.BufferSize)
    (reads : List ReadReply) (writes : List WriteReply) : Pumped :=
  match Streams.allocateBuffer reserve size.value with
  | .ok buffer => pumpLoop buffer .start reads writes
  | .error error => ⟨.failed error, [], reads, writes⟩

end Cuprum.Pump
