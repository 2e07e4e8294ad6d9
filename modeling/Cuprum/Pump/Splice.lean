import Cuprum.Pump.Machine

namespace Cuprum.Pump

/-- What the kernel answers one `splice`: how many bytes it moved, or an error. -/
abbrev SpliceReply := Except ErrorKind Nat

/-- A system call of either way of pumping. -/
inductive SpliceCall
  | splice (length : Nat) (reply : SpliceReply)
  | io (event : Event)
  deriving DecidableEq

/-- One splice, retried while it is interrupted. -/
structure SpliceOnce where
  outcome : Outcome Nat
  log : List SpliceCall
  rest : List SpliceReply

def SpliceOnce.after (once : SpliceOnce) (call : SpliceCall) : SpliceOnce :=
  { once with log := call :: once.log }

def spliceOnceWith (length : Nat) : List SpliceReply → SpliceOnce
  | [] => ⟨.waiting, [], []⟩
  | reply :: replies =>
      match syscallResult reply length with
      | .ok transferred => ⟨.returned transferred, [.splice length reply], replies⟩
      | .error .interrupted =>
          (spliceOnceWith length replies).after (.splice length reply)
      | .error kind => ⟨.failed (.io kind), [.splice length reply], replies⟩

/-- A run of the zero-copy pump as far as the answers given to it carry it. -/
structure Spliced where
  outcome : Outcome Nat
  log : List SpliceCall

def Spliced.afterAll (run : Spliced) (log : List SpliceCall) : Spliced :=
  { run with log := log ++ run.log }

/-- The number of the error by which the kernel refuses to splice these descriptors. -/
def einval : ErrorKind := .other 22

def isSpliceUnsupported : PumpError → Bool
  | .io kind => kind == einval
  | _ => false

/-- Read until the end of the input, keeping nothing. -/
def drainLoop (capacity : Nat) (reads : List ReadReply) : Stretch ReadReply Unit :=
  let filled := readRawFdWith capacity reads
  match _ : filled.outcome with
  | .waiting => ⟨.waiting, filled.log, filled.rest⟩
  | .failed error => ⟨.failed error, filled.log, filled.rest⟩
  | .returned bytes =>
      if bytes.length = 0 then ⟨.returned (), filled.log, filled.rest⟩
      else
        let drained := drainLoop capacity filled.rest
        { drained with log := filled.log ++ drained.log }
termination_by reads.length
decreasing_by exact readRawFdWith_rest_length ‹_›

def drainReader (reserve : Nat → Bool) (chunkSize : Nat) (reads : List ReadReply) :
    Stretch ReadReply Unit :=
  match Streams.allocateBuffer reserve chunkSize with
  | .ok buffer => drainLoop buffer.length reads
  | .error error => ⟨.failed error, [], reads⟩

def checkedAdd (total chunk : Nat) : Option Nat :=
  if total + chunk ≤ u64Max then some (total + chunk) else none

/-- The drain after a broken pipe, `total` bytes having been moved before it. -/
def drainAfterBreak (total : Nat) (drained : Stretch ReadReply Unit) : Spliced :=
  match drained.outcome with
  | .waiting => ⟨.waiting, drained.log.map .io⟩
  | .failed error => ⟨.failed error, drained.log.map .io⟩
  | .returned () => ⟨.returned total, drained.log.map .io⟩

theorem spliceOnceWith_rest_length (length : Nat) (replies : List SpliceReply)
    (ended : (spliceOnceWith length replies).outcome ≠ .waiting) :
    (spliceOnceWith length replies).rest.length < replies.length := by
  induction replies with
  | nil => exact absurd rfl ended
  | cons reply replies induction =>
      rw [spliceOnceWith] at ended ⊢
      split at ended
      next valid =>
        simp only
        exact Nat.lt_succ_self _
      next interrupted =>
        have shorter := induction ended
        simp only [SpliceOnce.after, List.length_cons]
        omega
      next kind persistent invalid =>
        simp only
        exact Nat.lt_succ_self _

/-- What is left of the answers when one more splice has been asked for. -/
def SpliceOnce.left (once : SpliceOnce) : Nat :=
  match once.outcome with
  | .waiting => 0
  | _ => once.rest.length + 1

theorem left_spliceOnceWith (length : Nat) (replies : List SpliceReply) :
    (spliceOnceWith length replies).left ≤ replies.length := by
  unfold SpliceOnce.left
  split
  next => exact Nat.zero_le _
  next ended =>
    apply spliceOnceWith_rest_length
    intro waits
    exact ended waits

/-- Accumulate what is moved until the end of the input or an error, from the outcome of
a first splice on. -/
def accumulateSplices (length : Nat) (drain : Stretch ReadReply Unit) (total : Nat)
    (once : SpliceOnce) : Spliced :=
  match _ : once.outcome with
  | .waiting => ⟨.waiting, once.log⟩
  | .failed error =>
      if isNonfatalWrite error then (drainAfterBreak total drain).afterAll once.log
      else ⟨.failed error, once.log⟩
  | .returned 0 => ⟨.returned total, once.log⟩
  | .returned (moved + 1) =>
      match checkedAdd total (moved + 1) with
      | none => ⟨.failed .lengthOverflow, once.log⟩
      | some total =>
          (accumulateSplices length drain total (spliceOnceWith length once.rest)).afterAll
            once.log
termination_by once.left
decreasing_by
  have shorter := left_spliceOnceWith length once.rest
  simp only [SpliceOnce.left] at shorter ⊢
  simp only [*]
  omega

/-- Pump by splicing, unless the first splice finds that unsupported. -/
def trySplicePump (reserve : Nat → Bool) (size : Streams.BufferSize)
    (splices : List SpliceReply) (reads : List ReadReply) : List SpliceCall ⊕ Spliced :=
  let first := spliceOnceWith size.value splices
  match first.outcome with
  | .failed error =>
      if isSpliceUnsupported error then .inl first.log
      else .inr (accumulateSplices size.value (drainReader reserve size.value reads) 0 first)
  | _ => .inr (accumulateSplices size.value (drainReader reserve size.value reads) 0 first)

/-- Splice first, and read and write where the descriptors cannot be spliced. -/
def pumpStreamFiles (reserve : Nat → Bool) (size : Streams.BufferSize)
    (splices : List SpliceReply) (reads : List ReadReply) (writes : List WriteReply) :
    Spliced :=
  match trySplicePump reserve size splices reads with
  | .inr run => run
  | .inl unsupported =>
      let copied := pumpStreamWithIo reserve size reads writes
      ⟨copied.outcome, unsupported ++ copied.log.map .io⟩

end Cuprum.Pump
