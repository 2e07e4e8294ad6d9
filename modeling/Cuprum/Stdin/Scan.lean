import Cuprum.Stdin.Writer

namespace Cuprum.Stdin

open Cuprum.Text

/-! What a stream comes to by itself: the bytes its chunks are encoded to, and the first
thing that goes wrong. -/

inductive Boundary
  | producer
  | chunk
  | encoder
  | pipe
  | hook
  deriving DecidableEq

def Call.boundary : Call → Option Boundary
  | aiter | anext _ => some .producer
  | buildEncoder | encode => some .encoder
  | reject _ => some .chunk
  | write _ | drain => some .pipe
  | observe .stdin => some .hook
  | _ => none

structure Fault where
  boundary : Boundary
  error : Raised
  deriving DecidableEq

/-- What it leaves the streaming loop as. -/
def Fault.failure (fault : Fault) : Failure :=
  match fault.boundary with
  | .producer =>
      if fault.error.isException then .producerFailure fault.error else .raised fault.error
  | _ => .raised fault.error

namespace Codec

variable {κ : Type} (codec : Codec κ)

/-- The encoder is built with the first text. -/
def text (held : Option κ) (text : List CodePoint) (final : Bool) :
    Except Raised (List UInt8 × Option κ) :=
  match held.elim codec.build .ok with
  | .error error => .error error
  | .ok encoder =>
      match codec.encode encoder text final with
      | .error error => .error error
      | .ok (payload, after) => .ok (payload, some after)

def payload (held : Option κ) : Chunk → Except Fault (List UInt8 × Option κ)
  | .text text =>
      match codec.text held text false with
      | .ok encoded => .ok encoded
      | .error error => .error ⟨.encoder, error⟩
  | .bytes bytes => .ok (bytes, held)
  | .other typeName => .error ⟨.chunk, invalidChunk typeName⟩

def encoded (held : Option κ) : List (Chunk × Sending) → List UInt8
  | [] => []
  | (chunk, _) :: rest =>
      match codec.payload held chunk with
      | .ok (payload, after) => payload ++ encoded after rest
      | .error _ => []

/-- What the encoder flushes past the last of the chunks. -/
def flushed (held : Option κ) : List (Chunk × Sending) → List UInt8
  | [] =>
      match held with
      | none => []
      | some encoder =>
          match codec.text (some encoder) [] true with
          | .ok (payload, _) => payload
          | .error _ => []
  | (chunk, _) :: rest =>
      match codec.payload held chunk with
      | .ok (_, after) => flushed after rest
      | .error _ => []

end Codec

namespace Sending

/-- Nothing befalls an empty payload. -/
def fault (sending : Sending) (payload : List UInt8) : Option Fault :=
  if payload = [] then none
  else
    match sending.write, sending.drain, sending.observe with
    | some error, _, _ => some ⟨.pipe, error⟩
    | none, some error, _ => some ⟨.pipe, error⟩
    | none, none, some error => some ⟨.hook, error⟩
    | none, none, none => none

end Sending

namespace StdinStream

variable {κ : Type} (codec : Codec κ) (stream : StdinStream)

def flushFault (held : Option κ) : Option Fault :=
  match held with
  | none => none
  | some encoder =>
      match codec.text (some encoder) [] true with
      | .ok (tail, _) => stream.flush.fault tail
      | .error error => some ⟨.encoder, error⟩

def faultFrom (held : Option κ) : List (Chunk × Sending) → Option Fault
  | [] =>
      match stream.ending with
      | some error => some ⟨.producer, error⟩
      | none => stream.flushFault codec held
  | (chunk, sending) :: rest =>
      match codec.payload held chunk with
      | .error fault => some fault
      | .ok (payload, after) =>
          match sending.fault payload with
          | some fault => some fault
          | none => faultFrom after rest

/-- The first thing to go wrong on the way of the stream. -/
def firstFault : Option Fault :=
  match stream.start with
  | some error => some ⟨.producer, error⟩
  | none => stream.faultFrom codec none stream.chunks

theorem fault_ne_chunk {sending : Sending} {payload : List UInt8} {fault : Fault}
    (found : sending.fault payload = some fault) : fault.boundary ≠ .chunk := by
  unfold Sending.fault at found
  split at found
  next => cases found
  next =>
    split at found <;> cases found <;> exact nofun

theorem faultFrom_chunk {held : Option κ} {chunks : List (Chunk × Sending)} {fault : Fault}
    (found : stream.faultFrom codec held chunks = some fault)
    (chunk : fault.boundary = .chunk) : ∃ typeName, fault.error = invalidChunk typeName := by
  induction chunks generalizing held with
  | nil =>
      unfold faultFrom flushFault at found
      split at found
      next => cases found; cases chunk
      next =>
        split at found
        next => cases found
        next =>
          split at found
          next => exact absurd chunk (fault_ne_chunk found)
          next => cases found; cases chunk
  | cons step rest induction =>
      obtain ⟨next, sending⟩ := step
      unfold faultFrom at found
      split at found
      next other refused =>
        cases found
        cases next with
        | text text =>
            simp only [Codec.payload] at refused
            split at refused
            next => cases refused
            next =>
              cases refused
              cases chunk
        | bytes bytes => cases refused
        | other typeName =>
            cases refused
            exact ⟨typeName, rfl⟩
      next payload after made =>
        split at found
        next other harmed =>
          cases found
          exact absurd chunk (fault_ne_chunk harmed)
        next => exact induction found

theorem firstFault_chunk {fault : Fault} (first : stream.firstFault codec = some fault)
    (chunk : fault.boundary = .chunk) : isEarlyClose fault.error = false := by
  unfold firstFault at first
  split at first
  next => cases first; cases chunk
  next =>
    obtain ⟨typeName, own⟩ := faultFrom_chunk codec stream first chunk
    rw [own]
    rfl

/-- The first thing to go wrong, if anything does, is not an encoder or an observe hook
raising what a child that closes its input would. -/
def Telling : Prop :=
  ∀ fault, stream.firstFault codec = some fault →
    fault.boundary = .encoder ∨ fault.boundary = .hook → isEarlyClose fault.error = false

end StdinStream

/-- At every moment the pipe has been handed the first of the bytes, those of the flush
only once the producer is exhausted, and a pull finds nothing undrained. -/
structure Log.Orderly {κ : Type} (codec : Codec κ) (stream : StdinStream) (log : Log) :
    Prop where
  ordered : ∀ moment, moment <+: log →
    Log.written moment <+: codec.encoded none stream.chunks ++
      if Log.exhausted moment then codec.flushed none stream.chunks else []
  paced : ∀ before event, before ++ [event] <+: log → event.call.isPull = true →
    Log.undrained before = false

namespace Log.Orderly

variable {κ : Type} {codec : Codec κ} {stream : StdinStream} {log more : Log} {event : Event}

theorem nil : Orderly codec stream [] where
  ordered := by
    intro moment first
    rw [List.prefix_nil.mp first]
    exact List.nil_prefix
  paced := by
    intro before event first pull
    exact absurd (List.prefix_nil.mp first) (List.append_ne_nil_of_right_ne_nil _ nofun)

theorem snoc (orderly : Orderly codec stream log)
    (ordered : written (log ++ [event]) <+: codec.encoded none stream.chunks ++
      if exhausted (log ++ [event]) then codec.flushed none stream.chunks else [])
    (paced : event.call.isPull = true → undrained log = false) :
    Orderly codec stream (log ++ [event]) where
  ordered := by
    intro moment first
    rcases List.prefix_concat_iff.mp first with rfl | earlier
    · exact ordered
    · exact orderly.ordered moment earlier
  paced := by
    intro before other first pull
    rcases List.prefix_concat_iff.mp first with same | earlier
    · obtain ⟨rfl, last⟩ := List.append_inj' same rfl
      rw [List.singleton_inj.mp last] at pull
      exact paced pull
    · exact orderly.paced before other earlier pull

theorem whole (orderly : Orderly codec stream log) :
    written log <+: codec.encoded none stream.chunks ++
      if exhausted log then codec.flushed none stream.chunks else [] :=
  orderly.ordered log (List.prefix_refl log)

theorem quiet (orderly : Orderly codec stream log) (still : Quiet more) :
    Orderly codec stream (log ++ more) := by
  induction more using List.reverseRecOn with
  | nil => rwa [List.append_nil]
  | append_singleton earlier event induction =>
      have before := induction fun other member => still other (List.mem_append_left _ member)
      have last : Quiet [event] := fun other member =>
        still other (List.mem_append_right _ member)
      rw [← List.append_assoc]
      apply before.snoc
      · rw [written_append, last.written, List.append_nil, exhausted_append, last.exhausted,
          Bool.or_false]
        exact before.whole
      · intro pull
        have quiet := last event (List.mem_singleton_self event)
        cases call : event.call <;> simp_all [Call.isPull, Call.isQuiet]

end Log.Orderly

end Cuprum.Stdin
