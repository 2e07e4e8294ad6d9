import Cuprum.Streams.Utf8

namespace Cuprum.Streams

open Codec

universe u

variable {ε : Type u}

inductive PumpError (ε : Type u)
  | lengthOverflow
  | bufferRangeExceeded
  | bufferAllocationFailed
  | io (error : ε)

def maxBufferSize : Nat := 1024 * 1024 * 1024

structure BufferSize where
  value : Nat
  positive : 0 < value
  capped : value ≤ maxBufferSize

def checkedBufferSize (usizeBits : Nat) (bufferSize : Int) :
    Except String BufferSize :=
  if nonpositive : bufferSize ≤ 0 then
    .error "buffer_size must be greater than zero"
  else if 1 <<< usizeBits ≤ bufferSize.toNat then
    .error "buffer_size is too large"
  else if exceeds : maxBufferSize < bufferSize.toNat then
    .error "buffer_size exceeds the maximum permitted size"
  else .ok ⟨bufferSize.toNat, by omega, by omega⟩

def allocateBuffer (reserve : Nat → Bool) (len : Nat) :
    Except (PumpError ε) (List UInt8) :=
  if reserve len then .ok (List.replicate len 0)
  else .error .bufferAllocationFailed

/-- One call of the read closure: its result, and the buffer as it leaves it. -/
structure ReadCall (ε : Type u) where
  result : Except (PumpError ε) Nat
  fill : List UInt8 → List UInt8
  length_fill : ∀ buffer, (fill buffer).length = buffer.length

def consumeLoop (buffer pending : List UInt8) (output : List Char) :
    List (ReadCall ε) → Option (Except (PumpError ε) (List Char))
  | [] => none
  | call :: calls =>
      match call.result with
      | .error err => some (.error err)
      | .ok readLen =>
          if readLen = 0 then
            some (.ok (decodeUtf8Replace pending output true).2)
          else if 0x10000000000000000 ≤ readLen then some (.error .lengthOverflow)
          else if (call.fill buffer).length < readLen then
            some (.error .bufferRangeExceeded)
          else
            let chunk := (call.fill buffer).take readLen
            let (pending, output) := decodeUtf8Replace (pending ++ chunk) output false
            consumeLoop (call.fill buffer) pending output calls

/-- Drain the read closure to end of file; absent when the calls run out first. -/
def consumeWithReader (reserve : Nat → Bool) (calls : List (ReadCall ε))
    (bufferSize : BufferSize) : Option (Except (PumpError ε) (List Char)) :=
  match allocateBuffer reserve bufferSize.value with
  | .error err => some (.error err)
  | .ok buffer => consumeLoop buffer [] [] calls

def appendChunk (state : List Char × List UInt8) (chunk : List UInt8) :
    List Char × List UInt8 :=
  let (pending, output) := decodeUtf8Replace (state.2 ++ chunk) state.1 false
  (output, pending)

/-- Decode multiple byte chunks through the incremental replacement decoder. -/
def decodeChunks (chunks : List (List UInt8)) (finalChunk : Bool) :
    List Char × List UInt8 :=
  let (output, pending) := chunks.foldl appendChunk ([], [])
  let (pending, output) := decodeUtf8Replace pending output finalChunk
  (output, pending)

theorem decodeUtf8Replace_false (pending : List UInt8) (output : List Char) :
    decodeUtf8Replace pending output false =
      ((utf8.scan pending).2, output ++ render (utf8.scan pending).1) := by
  rw [decodeUtf8Replace, decodeFrom_eq _ _ _ _ (Nat.zero_le _), List.drop_zero]
  rcases utf8.scan pending with ⟨decoded, tail⟩
  cases tail <;> rfl

theorem decodeUtf8Replace_true (pending : List UInt8) (output : List Char) :
    decodeUtf8Replace pending output true =
      ([], output ++ render (utf8.decodeLossy pending)) := by
  rw [decodeUtf8Replace, decodeFrom_eq _ _ _ _ (Nat.zero_le _), List.drop_zero,
    PrefixCode.decodeLossy]
  rcases utf8.scan pending with ⟨decoded, tail⟩
  cases tail <;> simp [settle]

/-- The loop's state once the bytes `fed` have been appended and decoded. -/
def decodedState (fed : List UInt8) : List Char × List UInt8 :=
  (render (utf8.scan fed).1, (utf8.scan fed).2)

theorem appendChunk_decodedState (fed chunk : List UInt8) :
    appendChunk (decodedState fed) chunk = decodedState (fed ++ chunk) := by
  rw [appendChunk, decodedState, decodeUtf8Replace_false, decodedState,
    utf8.scan_append fed chunk]
  simp

theorem foldl_appendChunk (chunks : List (List UInt8)) (fed : List UInt8) :
    chunks.foldl appendChunk (decodedState fed) =
      decodedState (fed ++ chunks.flatten) := by
  induction chunks generalizing fed with
  | nil => simp
  | cons chunk chunks induction =>
      rw [List.foldl_cons, appendChunk_decodedState, induction]
      simp

/-- Finishing from the carried tail replaces exactly what one scan replaces. -/
theorem finish_decodedState (fed : List UInt8) :
    decodeUtf8Replace (decodedState fed).2 (decodedState fed).1 true =
      ([], render (utf8.decodeLossy fed)) := by
  rw [decodeUtf8Replace_true, utf8.decodeLossy_eq fed]
  simp only [decodedState]
  rcases utf8.scan_tail fed with empty | isPartial
  · simp [empty, utf8.decodeLossy_eq]
  · have := isPartial.1
    simp [this, utf8.decodeLossy_eq, utf8.scan_of_isPartial isPartial]

theorem decodeChunks_true (chunks : List (List UInt8)) :
    decodeChunks chunks true = (render (utf8.decodeLossy chunks.flatten), []) := by
  have start : (([], []) : List Char × List UInt8) = decodedState [] := by
    simp [decodedState]
  rw [decodeChunks, start, foldl_appendChunk, List.nil_append]
  have finished := finish_decodedState chunks.flatten
  simp only [finished]

/-! The read loop over a source that delivers its bytes by short reads. -/

/-- The calls of a source that delivers these chunks, each within the buffer,
and then reports end of file. -/
inductive Delivers (size : Nat) : List (ReadCall ε) → List (List UInt8) → Prop
  | eof {call : ReadCall ε} {calls : List (ReadCall ε)} :
      call.result = .ok 0 → Delivers size (call :: calls) []
  | read {call : ReadCall ε} {calls : List (ReadCall ε)} {chunk : List UInt8}
      {chunks : List (List UInt8)} :
      chunk ≠ [] → chunk.length ≤ size → call.result = .ok chunk.length →
      (∀ buffer, buffer.length = size →
        (call.fill buffer).take chunk.length = chunk) →
      Delivers size calls chunks → Delivers size (call :: calls) (chunk :: chunks)

theorem consumeLoop_read {buffer pending chunk : List UInt8} {output : List Char}
    {call : ReadCall ε} {calls : List (ReadCall ε)} (nonempty : chunk ≠ [])
    (small : buffer.length ≤ maxBufferSize) (within : chunk.length ≤ buffer.length)
    (result : call.result = .ok chunk.length)
    (filled : (call.fill buffer).take chunk.length = chunk) :
    consumeLoop buffer pending output (call :: calls) =
      consumeLoop (call.fill buffer) (appendChunk (output, pending) chunk).2
        (appendChunk (output, pending) chunk).1 calls := by
  have positive : chunk.length ≠ 0 := by
    simpa using nonempty
  have representable : ¬ 0x10000000000000000 ≤ chunk.length := by
    simp only [maxBufferSize] at small
    omega
  have inside : ¬ (call.fill buffer).length < chunk.length := by
    rw [call.length_fill]
    omega
  rw [consumeLoop, result]
  simp only [positive, representable, inside, if_false, filled, appendChunk]

theorem consumeLoop_delivers {size : Nat} {calls : List (ReadCall ε)}
    {chunks : List (List UInt8)} (capped : size ≤ maxBufferSize)
    (delivers : Delivers size calls chunks) {buffer : List UInt8}
    (allocated : buffer.length = size) (fed : List UInt8) :
    consumeLoop buffer (decodedState fed).2 (decodedState fed).1 calls =
      some (.ok (render (utf8.decodeLossy (fed ++ chunks.flatten)))) := by
  induction delivers generalizing buffer fed with
  | eof result =>
      rw [consumeLoop, result]
      simp [finish_decodedState]
  | @read call calls chunk chunks nonempty within result filled _ induction =>
      rw [consumeLoop_read nonempty (by omega) (by omega) result
        (filled buffer allocated), appendChunk_decodedState,
        induction (by rw [call.length_fill, allocated])]
      simp

theorem consumeWithReader_delivers {reserve : Nat → Bool} {bufferSize : BufferSize}
    {calls : List (ReadCall ε)} {chunks : List (List UInt8)}
    (reserved : reserve bufferSize.value = true)
    (delivers : Delivers bufferSize.value calls chunks) :
    consumeWithReader reserve calls bufferSize =
      some (.ok (render (utf8.decodeLossy chunks.flatten))) := by
  have allocated : (List.replicate bufferSize.value (0 : UInt8)).length =
      bufferSize.value := List.length_replicate
  have consumed := consumeLoop_delivers bufferSize.capped delivers allocated []
  rw [consumeWithReader, allocateBuffer, if_pos reserved]
  simpa [decodedState] using consumed

/-- Every chunking of an input, and every sequence of short reads that delivers
it, decodes to the one lossy decoding of the whole input. -/
theorem decoding_independent_of_chunking (input : List UInt8) :
    ∃ decoded, utf8.Lossy input decoded ∧
      ∀ chunks : List (List UInt8), chunks.flatten = input →
        decodeChunks chunks true = (render decoded, []) ∧
        ∀ (reserve : Nat → Bool) (bufferSize : BufferSize)
          (calls : List (ReadCall ε)), reserve bufferSize.value = true →
          Delivers bufferSize.value calls chunks →
          consumeWithReader reserve calls bufferSize =
            some (.ok (render decoded)) := by
  refine ⟨utf8.decodeLossy input, utf8.lossy_decodeLossy input, ?_⟩
  rintro chunks rfl
  refine ⟨decodeChunks_true chunks, ?_⟩
  intro reserve bufferSize calls reserved delivers
  exact consumeWithReader_delivers reserved delivers

/-- A read that copies its bytes over the front of the buffer. -/
def copyRead (chunk : List UInt8) : ReadCall ε where
  result := .ok chunk.length
  fill buffer := (chunk ++ buffer.drop chunk.length).take buffer.length
  length_fill buffer := by
    rw [List.length_take, List.length_append, List.length_drop]
    omega

theorem delivers_copyRead {size : Nat} {chunks : List (List UInt8)}
    (short : ∀ chunk ∈ chunks, chunk ≠ [] ∧ chunk.length ≤ size) :
    Delivers size ((chunks ++ [[]]).map copyRead : List (ReadCall ε)) chunks := by
  induction chunks with
  | nil => exact .eof rfl
  | cons chunk chunks induction =>
      obtain ⟨nonempty, within⟩ := short chunk List.mem_cons_self
      refine .read nonempty within rfl ?_ (induction ?_)
      · intro buffer allocated
        simp [copyRead, List.take_take, allocated, within]
      · intro other member
        exact short other (List.mem_cons_of_mem chunk member)

theorem euro_sign_independent_of_chunking :
    ∃ decoded, utf8.Lossy [0xE2, 0x82, 0xAC, 0xE2] decoded ∧
      decodeChunks [[0xE2], [], [0x82, 0xAC, 0xE2]] true = (render decoded, []) ∧
      consumeWithReader (fun _ => true)
        ([[0xE2], [0x82, 0xAC, 0xE2], []].map copyRead : List (ReadCall String))
        ⟨3, by decide, by decide⟩ = some (.ok (render decoded)) := by
  obtain ⟨decoded, lossy, chunked⟩ :=
    @decoding_independent_of_chunking String [0xE2, 0x82, 0xAC, 0xE2]
  refine ⟨decoded, lossy, (chunked _ rfl).1, ?_⟩
  have short : ∀ chunk ∈ ([[0xE2], [0x82, 0xAC, 0xE2]] : List (List UInt8)),
      chunk ≠ [] ∧ chunk.length ≤ 3 := by
    decide
  exact (chunked [[0xE2], [0x82, 0xAC, 0xE2]] rfl).2 _ _ _ rfl
    (delivers_copyRead short)

end Cuprum.Streams
