import Cuprum.Text.CodePoint

namespace Cuprum.Stdin

open Cuprum.Text

/-- The classes an exception is caught by. -/
inductive ErrorKind
  | cancelled
  | fatal
  | brokenPipe
  | connectionReset
  | timeout
  | os
  | runtime
  | attribute
  | lookup
  | other
  deriving DecidableEq

/-- An exception: the class it is caught by, the name and the text it is told with, and
the error number of those that have one. -/
structure Raised where
  kind : ErrorKind
  name : String
  text : String
  errno : Option Int
  deriving DecidableEq

namespace Raised

/-- Whether `except Exception` catches it. -/
def isException (error : Raised) : Bool :=
  match error.kind with
  | .cancelled | .fatal => false
  | _ => true

/-- `contextlib.suppress(Exception, asyncio.CancelledError)`. -/
def isSuppressed (error : Raised) : Bool :=
  match error.kind with
  | .fatal => false
  | _ => true

def isOsError (error : Raised) : Bool :=
  match error.kind with
  | .brokenPipe | .connectionReset | .timeout | .os => true
  | _ => false

end Raised

def epipe : Int := 32

/-- The child closing its end of the input pipe, by the class of the exception. -/
def isEarlyClose (error : Raised) : Bool :=
  if error.kind = .brokenPipe ∨ error.kind = .connectionReset then true
  else error.isOsError && error.errno == some epipe

/-- What a producer yields; of what is neither text nor bytes, only its type is told. -/
inductive Chunk
  | text (text : List CodePoint)
  | bytes (bytes : List UInt8)
  | other (typeName : String)
  deriving DecidableEq

inductive StdioFailureCategory
  | producer
  | invalidChunk
  | encoder
  | pipe
  deriving DecidableEq

inductive Phase
  | stdin
  | stdinError
  | stdioError
  deriving DecidableEq

/-- What the writer calls, and what it reports. -/
inductive Call
  | aiter
  | anext (chunk : Option Chunk)
  | buildEncoder
  | encode
  | reject (typeName : String)
  | write (payload : List UInt8)
  | drain
  | observe (phase : Phase)
  | report (category : StdioFailureCategory) (operation errorType : String)
  | stdinError (operation errorType : String)
  | close
  | waitClosed
  | abort
  | aclose
  | finalizerWait
  | finalizerReclaim
  deriving DecidableEq

namespace Call

/-- The code of the caller: the producer, the encoder and the observe hooks. -/
def isCallers : Call → Bool
  | aiter | anext _ | buildEncoder | encode | observe _ => true
  | _ => false

def isOnPipe : Call → Bool
  | write _ | drain => true
  | _ => false

def isClose : Call → Bool
  | close => true
  | _ => false

def isFinalization : Call → Bool
  | aclose | finalizerWait | finalizerReclaim => true
  | _ => false

def isPull : Call → Bool
  | anext _ => true
  | _ => false

def payload : Call → List UInt8
  | write payload => payload
  | _ => []

end Call

/-- A call, and what it raised, if it did. -/
structure Event where
  call : Call
  fault : Option Raised
  deriving DecidableEq

abbrev Log := List Event

namespace Log

def written (log : Log) : List UInt8 :=
  log.flatMap fun event => event.call.payload

def exhausted (log : Log) : Bool :=
  log.any fun event => event == ⟨.anext none, none⟩

def undrained (log : Log) : Bool :=
  log.foldl (fun pending event =>
    match event.call, event.fault with
    | .write _, _ => true
    | .drain, none => false
    | _, _ => pending) false

variable {log more : Log} {event : Event}

@[simp] theorem written_append : written (log ++ more) = written log ++ written more :=
  List.flatMap_append

@[simp] theorem exhausted_append :
    exhausted (log ++ more) = (exhausted log || exhausted more) :=
  List.any_append

theorem undrained_snoc :
    undrained (log ++ [event]) =
      match event.call, event.fault with
      | .write _, _ => true
      | .drain, none => false
      | _, _ => undrained log := by
  rw [undrained, List.foldl_append]
  rfl

end Log

/-- Calls that move nothing between the producer and the pipe. -/
def Call.isQuiet : Call → Bool
  | anext _ | write _ | drain => false
  | _ => true

def Log.Quiet (log : Log) : Prop :=
  ∀ event ∈ log, event.call.isQuiet = true

namespace Log.Quiet

variable {log more : Log}

theorem single {event : Event} (quiet : event.call.isQuiet = true) : Quiet [event] := by
  intro other member
  rwa [List.mem_singleton.mp member]

theorem written (quiet : more.Quiet) : more.written = [] := by
  apply List.flatMap_eq_nil_iff.mpr
  intro event member
  have still := quiet event member
  cases call : event.call <;> simp_all [Call.isQuiet, Call.payload]

theorem exhausted (quiet : more.Quiet) : more.exhausted = false := by
  apply List.any_eq_false.mpr
  intro event member same
  have still := quiet event member
  rw [beq_iff_eq.mp same] at still
  cases still

theorem undrained (quiet : more.Quiet) :
    Log.undrained (log ++ more) = Log.undrained log := by
  induction more using List.reverseRecOn with
  | nil => rw [List.append_nil]
  | append_singleton earlier event induction =>
      have still := quiet event (List.mem_append_right _ (List.mem_singleton_self _))
      rw [← List.append_assoc, Log.undrained_snoc,
        induction fun other member => quiet other (List.mem_append_left _ member)]
      cases call : event.call <;> simp_all [Call.isQuiet]

end Log.Quiet

end Cuprum.Stdin
