import Cuprum.Echo.Framing

namespace Cuprum.Echo

open Codec Text

def replaceErrors : ErrorPolicy :=
  ⟨fun _ => some [.ofNat 0xFFFD], fun _ => some [0x3F], fun _ => false, fun _ => false⟩

/-- How one stream is echoed.  A sink without a byte buffer takes text, which it encodes
itself: `sinkEncode` is what its own codec and error policy make of a character. -/
structure EchoConfig where
  encoding : EchoCodec
  errors : ErrorPolicy
  captureBytes : Bool
  hasBuffer : Bool
  sinkEncode : CodePoint → Option (List UInt8)

namespace EchoConfig

/-- A view of the child's bytes must not raise in a byte-exact run. -/
def viewErrors (config : EchoConfig) : ErrorPolicy :=
  if config.captureBytes then replaceErrors else config.errors

def settings (config : EchoConfig) : EchoEncoding :=
  ⟨config.encoding, config.errors, !config.hasBuffer⟩

end EchoConfig

/-- The echo decoder's held bytes, what ended the echo, and the bytes mirrored
for each finished line in the sink's encoding. -/
structure EchoChannel where
  held : List UInt8
  disabled : Bool
  raised : Bool
  lines : List (List UInt8)

structure EchoState where
  limiter : EchoLineLimiter
  channel : EchoChannel

def extendLast (lines : List (List UInt8)) (bytes : List UInt8) :
    List (List UInt8) :=
  match lines.getLast? with
  | none => if bytes = [] then [] else [bytes]
  | some last => lines.dropLast ++ [last ++ bytes]

def EchoChannel.record (channel : EchoChannel) (bytes : List UInt8)
    (final : Bool) : EchoChannel :=
  { channel with
    lines := if final then extendLast channel.lines bytes
      else channel.lines ++ [bytes] }

/-- Hand text to a sink that encodes it; an unencodable text disables the echo. -/
def writeText (config : EchoConfig) (channel : EchoChannel)
    (text : List CodePoint) (final : Bool) : EchoChannel :=
  match encodeAll config.sinkEncode text with
  | none => { channel with disabled := true }
  | some bytes => channel.record bytes final

/-- Write a chunk to the sink's buffer, or decode it for a text sink. -/
def writeChunk (config : EchoConfig) (channel : EchoChannel)
    (chunk : List UInt8) (final : Bool) : EchoChannel :=
  if config.hasBuffer then channel.record chunk final
  else
    match config.encoding.decoder.run config.viewErrors.decode
        (channel.held ++ chunk) with
    | none => { channel with raised := true }
    | some (text, held) =>
        if final ∧ held ≠ [] then
          match config.viewErrors.decode held with
          | none => { channel with raised := true }
          | some replaced =>
              writeText config { channel with held := [] } (text ++ replaced) final
        else writeText config { channel with held } text final

def echoWrite (config : EchoConfig) (channel : EchoChannel)
    (chunk : List UInt8) (final : Bool) : EchoChannel :=
  if channel.disabled then channel else writeChunk config channel chunk final

def writeFinishedEchoLine (config : EchoConfig) (state : EchoState)
    (ending : List UInt8) : EchoState :=
  let (finished, limiter) := state.limiter.finishLine ending config.settings
  match finished with
  | none => ⟨limiter, { state.channel with raised := true }⟩
  | some finished =>
      ⟨limiter, echoWrite config state.channel finished.payload false⟩

def echoBoundedSegment (config : EchoConfig) (state : EchoState)
    (segment : List UInt8 × Option (List UInt8)) : EchoState :=
  if state.channel.raised then state
  else
    let state := { state with limiter := state.limiter.boundLine segment.1 }
    match segment.2 with
    | none => state
    | some ending => writeFinishedEchoLine config state ending

def echoChunk (config : EchoConfig) (state : EchoState) (chunk : List UInt8) :
    EchoState :=
  if state.channel.disabled || state.channel.raised then state
  else
    let (data, limiter) := prependPendingCarriageReturn state.limiter chunk
    (splitEchoSegments [] data).foldl (echoBoundedSegment config)
      { state with limiter }

def finishLastLine (config : EchoConfig) (state : EchoState) : EchoState :=
  if 0 < state.limiter.sourceLineBytes then writeFinishedEchoLine config state []
  else state

def finalWrite (config : EchoConfig) (channel : EchoChannel) : EchoChannel :=
  if config.hasBuffer || channel.raised then channel
  else echoWrite config channel [] true

/-- Finish the last line at end of stream and flush the text sink's decoder. -/
def flushEchoDecoder (config : EchoConfig) (state : EchoState) : EchoState :=
  if state.channel.raised then state
  else
    let limiter := finishPendingCarriageReturn state.limiter
    let state := finishLastLine config { state with limiter }
    { state with channel := finalWrite config state.channel }

def echoInitial (maxLineBytes : Nat) : EchoState :=
  ⟨.initial maxLineBytes, ⟨[], false, false, []⟩⟩

/-- The bytes mirrored for each line of a stream read in these chunks. -/
def echoLines (config : EchoConfig) (maxLineBytes : Nat)
    (chunks : List (List UInt8)) : List (List UInt8) :=
  (flushEchoDecoder config
    (chunks.foldl (echoChunk config) (echoInitial maxLineBytes))).channel.lines

/-! The echo of a stream is the echo of its lines in order, however it was
chunked. -/

def mirrorLine (config : EchoConfig) (maxLineBytes : Nat) (channel : EchoChannel)
    (line : List UInt8 × List UInt8) : EchoChannel :=
  if channel.raised then channel
  else
    (writeFinishedEchoLine config ⟨fedLimiter maxLineBytes line.1 false, channel⟩
      line.2).channel

def EchoState.framing (state : EchoState) : Framing EchoChannel :=
  ⟨state.limiter, state.channel⟩

def channelMirror (config : EchoConfig) : LineMirror EchoChannel where
  raised := EchoChannel.raised
  disabled := EchoChannel.disabled
  writeFinishedEchoLine limiter ending channel :=
    (writeFinishedEchoLine config ⟨limiter, channel⟩ ending).channel
  finalWrite := finalWrite config
  pending_irrelevant limiter pending ending channel := by
    have finished := limiter.finishLine_pending pending ending config.settings
    simp only [writeFinishedEchoLine, finished]
    cases (limiter.finishLine ending config.settings).1 <;> rfl

theorem writeFinishedEchoLine_limiter (config : EchoConfig) (state : EchoState)
    (ending : List UInt8) :
    (writeFinishedEchoLine config state ending).limiter =
      { state.limiter with line := [], sourceLineBytes := 0 } := by
  unfold writeFinishedEchoLine
  dsimp only
  split <;> rfl

theorem echoBoundedSegment_framing (config : EchoConfig) (state : EchoState)
    (segment : List UInt8 × Option (List UInt8)) :
    (echoBoundedSegment config state segment).framing =
      (channelMirror config).echoBoundedSegment state.framing segment := by
  unfold echoBoundedSegment LineMirror.echoBoundedSegment
  obtain ⟨body, ending⟩ := segment
  cases raised : state.channel.raised with
  | true => simp [EchoState.framing, channelMirror, raised]
  | false =>
      cases ending with
      | none => simp [EchoState.framing, channelMirror, raised]
      | some ending =>
          simp [EchoState.framing, channelMirror, raised, writeFinishedEchoLine_limiter]

theorem foldl_segment_framing (config : EchoConfig) (state : EchoState)
    (segments : List (List UInt8 × Option (List UInt8))) :
    (segments.foldl (echoBoundedSegment config) state).framing =
      segments.foldl (channelMirror config).echoBoundedSegment state.framing := by
  induction segments generalizing state with
  | nil => rfl
  | cons segment segments induction =>
      rw [List.foldl_cons, List.foldl_cons, induction, echoBoundedSegment_framing]

theorem echoChunk_framing (config : EchoConfig) (state : EchoState)
    (chunk : List UInt8) :
    (echoChunk config state chunk).framing =
      (channelMirror config).echoChunk state.framing chunk := by
  unfold echoChunk LineMirror.echoChunk
  by_cases stopped : (state.channel.disabled || state.channel.raised) = true
  · rw [if_pos stopped]
    exact (if_pos stopped).symm
  · rw [if_neg stopped]
    exact (foldl_segment_framing config _ _).trans (if_neg stopped).symm

theorem foldl_echoChunk_framing (config : EchoConfig) (state : EchoState)
    (chunks : List (List UInt8)) :
    (chunks.foldl (echoChunk config) state).framing =
      chunks.foldl (channelMirror config).echoChunk state.framing := by
  induction chunks generalizing state with
  | nil => rfl
  | cons chunk chunks induction =>
      rw [List.foldl_cons, List.foldl_cons, induction, echoChunk_framing]

theorem finish_channelMirror (config : EchoConfig) (channel : EchoChannel) :
    (channelMirror config).finish channel = finalWrite config channel := by
  rw [LineMirror.finish]
  split
  next raised =>
    have raised : channel.raised = true := raised
    simp [finalWrite, raised]
  next => rfl

theorem flushEchoDecoder_framing (config : EchoConfig) (state : EchoState) :
    (flushEchoDecoder config state).channel =
      (channelMirror config).flushEchoDecoder state.framing := by
  unfold flushEchoDecoder LineMirror.flushEchoDecoder
  rw [finish_channelMirror]
  cases raised : state.channel.raised with
  | true => simp [EchoState.framing, channelMirror, raised]
  | false =>
      have last : (finishLastLine config
          ⟨finishPendingCarriageReturn state.limiter, state.channel⟩).channel =
          (channelMirror config).finishLastLine
            (finishPendingCarriageReturn state.limiter) state.channel := by
        unfold finishLastLine LineMirror.finishLastLine
        split <;> rfl
      simp only [EchoState.framing, channelMirror, raised] at last ⊢
      exact congrArg (finalWrite config) last

def Stopped (channel : EchoChannel) : Prop :=
  channel.disabled = true ∨ channel.raised = true

theorem echoWrite_of_disabled (config : EchoConfig) {channel : EchoChannel}
    (disabled : channel.disabled = true) (chunk : List UInt8) (final : Bool) :
    echoWrite config channel chunk final = channel :=
  if_pos disabled

/-- Nothing is mirrored after a refused text or a raised error. -/
theorem lines_settle (config : EchoConfig) :
    (channelMirror config).Settles EchoChannel.lines where
  write limiter ending channel stopped running := by
    have disabled : channel.disabled = true :=
      stopped.resolve_right (by simpa [channelMirror] using running)
    simp only [channelMirror, writeFinishedEchoLine]
    split
    next => exact ⟨.inr rfl, rfl⟩
    next => exact ⟨.inl (by simp [echoWrite_of_disabled, disabled]),
      by rw [echoWrite_of_disabled config disabled]⟩
  final stopped running := by
    have disabled :=
      stopped.resolve_right (by simpa [channelMirror] using running)
    simp only [channelMirror, finalWrite]
    split
    next => rfl
    next => rw [echoWrite_of_disabled config disabled]

theorem mirrorLine_eq (config : EchoConfig) (maxLineBytes : Nat) :
    (channelMirror config).mirrorLine maxLineBytes = mirrorLine config maxLineBytes :=
  rfl

theorem foldl_mirrorLine_stopped (config : EchoConfig) (maxLineBytes : Nat)
    {channel : EchoChannel} (stopped : Stopped channel)
    (lines : List (List UInt8 × List UInt8)) :
    (finalWrite config (lines.foldl (mirrorLine config maxLineBytes) channel)).lines =
      channel.lines := by
  have settled := (lines_settle config).foldl_mirrorLine maxLineBytes stopped lines
  rwa [finish_channelMirror, mirrorLine_eq] at settled

theorem echoLines_eq (config : EchoConfig) (maxLineBytes : Nat)
    (chunks : List (List UInt8)) :
    echoLines config maxLineBytes chunks =
      (finalWrite config ((sourceLines [] chunks.flatten).foldl
        (mirrorLine config maxLineBytes) ⟨[], false, false, []⟩)).lines := by
  have streamed := (lines_settle config).echoStream_view maxLineBytes
    ⟨[], false, false, []⟩ chunks
  rw [finish_channelMirror, mirrorLine_eq] at streamed
  rw [echoLines, flushEchoDecoder_framing, foldl_echoChunk_framing]
  exact streamed

end Cuprum.Echo
