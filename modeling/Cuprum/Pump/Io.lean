import Cuprum.Streams.Consume

namespace Cuprum.Pump

/-- The kinds of operating-system error the pump tells apart; every other kind
is known by its code. -/
inductive ErrorKind
  | interrupted
  | brokenPipe
  | connectionReset
  | writeZero
  | invalidData
  | other (code : Int)
  deriving DecidableEq

abbrev PumpError := Streams.PumpError ErrorKind

def isNonfatalWrite : PumpError → Bool
  | .io .brokenPipe => true
  | .io .connectionReset => true
  | _ => false

def u64Max : Nat := 18446744073709551615

def saturatingAdd (total bytes : Nat) : Nat := min (total + bytes) u64Max

def checkedCount (count capacity : Nat) : Option Nat :=
  if count ≤ capacity then some count else none

def checkedProgress (total remaining written : Nat) : Option (Nat × Nat) :=
  if remaining < written ∨ u64Max - total < written then none
  else some (total + written, remaining - written)

/-- What the kernel answers one `read`: the bytes it placed in the buffer, none
of them at the end of the input, or an error. -/
abbrev ReadReply := Except ErrorKind (List UInt8)

/-- What the kernel answers one `write`: how many bytes it took, or an error. -/
abbrev WriteReply := Except ErrorKind Nat

def syscallResult (reply : Except ErrorKind Nat) (capacity : Nat) :
    Except ErrorKind Nat :=
  match reply with
  | .error kind => .error kind
  | .ok count =>
      match checkedCount count capacity with
      | some count => .ok count
      | none => .error .invalidData

/-- One system call with its arguments and its answer. -/
inductive Event
  | read (capacity : Nat) (reply : ReadReply)
  | write (chunk : List UInt8) (reply : WriteReply)
  deriving DecidableEq

inductive Outcome (α : Type)
  | returned (value : α)
  | failed (error : PumpError)
  | waiting

/-- A stretch of native I/O: how it ended, the calls it made, and the answers
that nobody has asked for yet.  A call for which no answer is left leaves the
stretch waiting. -/
structure Stretch (ρ α : Type) where
  outcome : Outcome α
  log : List Event
  rest : List ρ

namespace Stretch

variable {ρ α : Type}

def after (stretch : Stretch ρ α) (event : Event) : Stretch ρ α :=
  { stretch with log := event :: stretch.log }

@[simp] theorem after_outcome (stretch : Stretch ρ α) (event : Event) :
    (stretch.after event).outcome = stretch.outcome := rfl

@[simp] theorem after_log (stretch : Stretch ρ α) (event : Event) :
    (stretch.after event).log = event :: stretch.log := rfl

@[simp] theorem after_rest (stretch : Stretch ρ α) (event : Event) :
    (stretch.after event).rest = stretch.rest := rfl

end Stretch

/-- The buffer once a `read` has placed `bytes` at its front: what an earlier
read left behind them is still there. -/
def overwrite (buffer bytes : List UInt8) : List UInt8 :=
  bytes ++ buffer.drop bytes.length

def bufferPrefix (buffer : List UInt8) (readLen : Nat) :
    Except PumpError (List UInt8) :=
  if readLen ≤ buffer.length then .ok (buffer.take readLen)
  else .error .bufferRangeExceeded

@[simp] theorem length_overwrite {buffer bytes : List UInt8}
    (fits : bytes.length ≤ buffer.length) :
    (overwrite buffer bytes).length = buffer.length := by
  simp only [overwrite, List.length_append, List.length_drop]
  omega

theorem bufferPrefix_overwrite {buffer bytes : List UInt8}
    (fits : bytes.length ≤ buffer.length) :
    bufferPrefix (overwrite buffer bytes) bytes.length = .ok bytes := by
  simp [bufferPrefix, fits, overwrite]

/-- Read into a buffer of `capacity` bytes, retrying on interruption. -/
def readRawFdWith (capacity : Nat) : List ReadReply → Stretch ReadReply (List UInt8)
  | [] => ⟨.waiting, [], []⟩
  | .ok bytes :: replies =>
      match syscallResult (.ok bytes.length) capacity with
      | .ok _ => ⟨.returned bytes, [.read capacity (.ok bytes)], replies⟩
      | .error kind => ⟨.failed (.io kind), [.read capacity (.ok bytes)], replies⟩
  | .error .interrupted :: replies =>
      (readRawFdWith capacity replies).after (.read capacity (.error .interrupted))
  | .error kind :: replies =>
      ⟨.failed (.io kind), [.read capacity (.error kind)], replies⟩

inductive WriteOutcome
  | complete (bytes : Nat)
  | nonFatalShortWrite (bytes : Nat)
  deriving DecidableEq

def recordWriteProgress (chunk : List UInt8) (writtenLen totalWritten : Nat) :
    Except PumpError (List UInt8 × Nat) :=
  if writtenLen ≤ chunk.length then
    match checkedProgress totalWritten chunk.length writtenLen with
    | some (newTotal, _) => .ok (chunk.drop writtenLen, newTotal)
    | none => .error .lengthOverflow
  else .error .bufferRangeExceeded

def mapShortWriteError (kind : ErrorKind) (totalWritten : Nat) :
    Outcome WriteOutcome :=
  if isNonfatalWrite (.io kind) then
    .returned (.nonFatalShortWrite totalWritten)
  else .failed (.io kind)

/-- Write what is left of the chunk until all of it is taken. -/
def writeAllUnixWith (chunk : List UInt8) (totalWritten : Nat) :
    List WriteReply → Stretch WriteReply WriteOutcome
  | [] =>
      if chunk.isEmpty then ⟨.returned (.complete totalWritten), [], []⟩
      else ⟨.waiting, [], []⟩
  | reply :: replies =>
      if chunk.isEmpty then
        ⟨.returned (.complete totalWritten), [], reply :: replies⟩
      else
        match syscallResult reply chunk.length with
        | .ok written =>
            if 0 < written then
              match recordWriteProgress chunk written totalWritten with
              | .ok (tail, newTotal) =>
                  (writeAllUnixWith tail newTotal replies).after (.write chunk reply)
              | .error error => ⟨.failed error, [.write chunk reply], replies⟩
            else ⟨.failed (.io .writeZero), [.write chunk reply], replies⟩
        | .error .interrupted =>
            (writeAllUnixWith chunk totalWritten replies).after (.write chunk reply)
        | .error kind =>
            ⟨mapShortWriteError kind totalWritten, [.write chunk reply], replies⟩

inductive WriteEvent
  | complete (bytes : Nat)
  | closed (bytes : Nat)
  deriving DecidableEq

def classifyWriteOutcome : Outcome WriteOutcome → Outcome WriteEvent
  | .returned (.complete bytes) => .returned (.complete bytes)
  | .returned (.nonFatalShortWrite bytes) => .returned (.closed bytes)
  | .failed error => .failed error
  | .waiting => .waiting

def classifyWriteWith (chunk : List UInt8) (replies : List WriteReply) :
    Stretch WriteReply WriteEvent :=
  let written := writeAllUnixWith chunk 0 replies
  ⟨classifyWriteOutcome written.outcome, written.log, written.rest⟩

end Cuprum.Pump
