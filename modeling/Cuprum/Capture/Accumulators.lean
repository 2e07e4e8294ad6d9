import Cuprum.Capture.Decode

namespace Cuprum.Capture

open Codec Text

inductive CaptureStreamName
  | stdout
  | stderr

inductive CapturePolicyKind
  | full
  | bounded

structure CapturedStream where
  stream : CaptureStreamName
  policy : CapturePolicyKind
  totalBytes : Nat
  droppedBytes : Nat

structure CaptureFinal where
  payload : Option Payload
  capture : CapturedStream

/-- A truncation reported to capture hooks. -/
structure TruncatedEvent where
  stream : CaptureStreamName
  totalBytes : Nat
  droppedBytes : Nat

structure BoundedCapture where
  maxBytes : Nat
  positive : 0 < maxBytes

structure BoundedAccumulator where
  policy : BoundedCapture
  stream : CaptureStreamName
  settings : DecodeSettings
  buffer : List UInt8
  total : Nat
  dropped : Nat
  offset : Nat
  streamStart : List UInt8
  truncationEmitted : Bool

namespace BoundedAccumulator

def initial (policy : BoundedCapture) (stream : CaptureStreamName)
    (settings : DecodeSettings) : BoundedAccumulator :=
  ⟨policy, stream, settings, [], 0, 0, 0, [], false⟩

/-- Append one raw chunk and discard whatever no longer fits. -/
def absorb (self : BoundedAccumulator) (chunk : List UInt8) : BoundedAccumulator :=
  let streamStart :=
    if self.streamStart.length < bomMaxBytes then
      self.streamStart ++ chunk.take (bomMaxBytes - self.streamStart.length)
    else self.streamStart
  let buffer := self.buffer ++ chunk
  let total := self.total + chunk.length
  let overflow := buffer.length - self.policy.maxBytes
  if 0 < overflow then
    { self with
      streamStart, total
      buffer := buffer.drop overflow
      offset := self.offset + overflow
      dropped := total - (buffer.drop overflow).length }
  else { self with streamStart, total, buffer }

def absorbAll (self : BoundedAccumulator) (chunks : List (List UInt8)) :
    BoundedAccumulator :=
  chunks.foldl absorb self

/-- Render the retained tail and report the bytes it dropped, with the event a
first report publishes. -/
def finalize (self : BoundedAccumulator) (byteOrder : ByteOrder) :
    CaptureFinal × Option TruncatedEvent × BoundedAccumulator :=
  let raw := self.buffer
  let codec := boundedCodec byteOrder self.settings.encoding self.streamStart
  let settings :=
    if self.dropped ≠ 0 then
      boundedSettings byteOrder self.settings self.streamStart
    else self.settings
  let retained :=
    if settings.captureBytes ∨ self.dropped = 0 then raw
    else trimToCodePoint raw codec self.offset
  let dropped := self.dropped + raw.length - retained.length
  let emits := dropped ≠ 0 ∧ self.truncationEmitted = false
  ({ payload := render byteOrder retained settings
     capture := ⟨self.stream, .bounded, self.total, dropped⟩ },
    if emits then some ⟨self.stream, self.total, dropped⟩ else none,
    { self with truncationEmitted := if emits then true else self.truncationEmitted })

/-- What the accumulator holds once these bytes have been absorbed. -/
structure Absorbed (accumulator : BoundedAccumulator) (bytes : List UInt8) :
    Prop where
  total : accumulator.total = bytes.length
  buffer : accumulator.buffer =
    bytes.drop (bytes.length - accumulator.policy.maxBytes)
  dropped : accumulator.dropped = bytes.length - accumulator.policy.maxBytes
  offset : accumulator.offset = bytes.length - accumulator.policy.maxBytes
  streamStart : accumulator.streamStart = bytes.take bomMaxBytes

theorem absorb_streamStart (bytes chunk : List UInt8) (limit : Nat) :
    (if (bytes.take limit).length < limit then
      bytes.take limit ++ chunk.take (limit - (bytes.take limit).length)
    else bytes.take limit) = (bytes ++ chunk).take limit := by
  rw [List.take_append, List.length_take]
  split
  next short =>
    rw [Nat.min_eq_right (by omega)]
  next full =>
    rw [Nat.sub_eq_zero_of_le (by omega), List.take_zero, List.append_nil]

/-- Dropping the overflow of each chunk keeps the last bytes of the stream. -/
theorem drop_overflow (bytes chunk : List UInt8) (limit : Nat) :
    let buffer := bytes.drop (bytes.length - limit) ++ chunk
    buffer.drop (buffer.length - limit) =
      (bytes ++ chunk).drop ((bytes ++ chunk).length - limit) := by
  intro buffer
  have whole : buffer = (bytes ++ chunk).drop (bytes.length - limit) := by
    rw [List.drop_append_of_le_length (by omega)]
  have position : bytes.length - limit + (buffer.length - limit) =
      (bytes ++ chunk).length - limit := by
    simp only [whole, List.length_drop, List.length_append]
    omega
  rw [← position, ← List.drop_drop, ← whole]

theorem Absorbed.absorb {accumulator : BoundedAccumulator} {bytes : List UInt8}
    (absorbed : accumulator.Absorbed bytes) (chunk : List UInt8) :
    (accumulator.absorb chunk).Absorbed (bytes ++ chunk) := by
  have start := absorb_streamStart bytes chunk bomMaxBytes
  rw [← absorbed.streamStart] at start
  have held : accumulator.buffer.length =
      min bytes.length accumulator.policy.maxBytes := by
    rw [absorbed.buffer, List.length_drop]
    omega
  have kept : (accumulator.buffer ++ chunk).drop
      ((accumulator.buffer ++ chunk).length - accumulator.policy.maxBytes) =
      (bytes ++ chunk).drop
        ((bytes ++ chunk).length - accumulator.policy.maxBytes) := by
    rw [absorbed.buffer]
    exact drop_overflow bytes chunk accumulator.policy.maxBytes
  have total := absorbed.total
  have dropped := absorbed.dropped
  have offset := absorbed.offset
  unfold BoundedAccumulator.absorb
  dsimp only
  split
  next exceeds =>
    refine ⟨?_, kept, ?_, ?_, start⟩
    · simp only [List.length_append, total]
    · rw [kept]
      simp only [List.length_drop, List.length_append, total]
      omega
    · simp only [List.length_append] at exceeds ⊢
      omega
  next fits =>
    rw [List.length_append] at fits
    refine ⟨?_, ?_, ?_, ?_, start⟩
    · simp only [List.length_append, total]
    · have fitting : (accumulator.buffer ++ chunk).length -
          accumulator.policy.maxBytes = 0 := by
        rw [List.length_append]
        omega
      rw [← kept, fitting, List.drop_zero]
    · simp only [List.length_append]
      omega
    · simp only [List.length_append]
      omega

@[simp] theorem absorb_policy (self : BoundedAccumulator) (chunk : List UInt8) :
    (self.absorb chunk).policy = self.policy := by
  unfold absorb
  dsimp only
  split <;> rfl

@[simp] theorem absorb_settings (self : BoundedAccumulator) (chunk : List UInt8) :
    (self.absorb chunk).settings = self.settings := by
  unfold absorb
  dsimp only
  split <;> rfl

theorem absorbAll_absorbed {self : BoundedAccumulator} {bytes : List UInt8}
    (absorbed : self.Absorbed bytes) (chunks : List (List UInt8)) :
    (self.absorbAll chunks).Absorbed (bytes ++ chunks.flatten) ∧
      (self.absorbAll chunks).policy = self.policy ∧
      (self.absorbAll chunks).settings = self.settings := by
  induction chunks generalizing self bytes with
  | nil => exact ⟨by simpa [absorbAll] using absorbed, rfl, rfl⟩
  | cons chunk chunks induction =>
      obtain ⟨held, policy, settings⟩ := induction (absorbed.absorb chunk)
      rw [List.append_assoc] at held
      exact ⟨held, policy.trans (absorb_policy self chunk),
        settings.trans (absorb_settings self chunk)⟩

theorem absorbed_initial (policy : BoundedCapture) (stream : CaptureStreamName)
    (settings : DecodeSettings) : (initial policy stream settings).Absorbed [] :=
  ⟨rfl, by simp [initial], by simp [initial], by simp [initial], rfl⟩

end BoundedAccumulator

/-! The streams a bounded text capture accepts. -/

/-- How a child writes its text: a concrete codec, or a family with the mark of
its byte order. -/
inductive Form
  | plain (codec : Utf)
  | marked (family : Family) (order : ByteOrder)

namespace Form

def encoding : Form → Encoding
  | plain codec => .codec (.utf codec)
  | marked family _ => .family family

def codec : Form → Utf
  | plain codec => codec
  | marked family .little => (bomSelectedCodecs family).1
  | marked family .big => (bomSelectedCodecs family).2

def mark : Form → List UInt8
  | plain _ => []
  | marked .utf16 .little => [0xFF, 0xFE]
  | marked .utf16 .big => [0xFE, 0xFF]
  | marked .utf32 .little => [0xFF, 0xFE, 0x00, 0x00]
  | marked .utf32 .big => [0x00, 0x00, 0xFE, 0xFF]
  | marked .utf8Sig _ => [0xEF, 0xBB, 0xBF]

def stream (form : Form) (text : List Char) : List UInt8 :=
  form.mark ++ text.flatMap form.codec.encode

/-- The mark as text of its own codec. -/
def markText : Form → List Char
  | plain _ => []
  | marked _ _ => ['\uFEFF']

theorem flatMap_markText (form : Form) :
    form.markText.flatMap form.codec.encode = form.mark := by
  cases form with
  | plain codec => rfl
  | marked family order => cases family <;> cases order <;> decide

theorem stream_eq (form : Form) (text : List Char) :
    form.stream text = (form.markText ++ text).flatMap form.codec.encode := by
  rw [List.flatMap_append, flatMap_markText]
  rfl

theorem markSelected_of_mark (family : Family) (order : ByteOrder)
    (rest : List UInt8) :
    markSelected family ((marked family order).mark ++ rest) =
      some ((marked family order).mark, (marked family order).codec) := by
  cases family <;> cases order <;>
    simp [markSelected, bomMarks, mark, codec, bomSelectedCodecs]

theorem boundedCodec_stream (form : Form) (byteOrder : ByteOrder)
    (text : List Char) :
    boundedCodec byteOrder form.encoding ((form.stream text).take bomMaxBytes) =
      .utf form.codec := by
  cases form with
  | plain codec => rfl
  | marked family order =>
      have short : (marked family order).mark.length ≤ bomMaxBytes := by
        cases family <;> cases order <;> decide
      have selected := markSelected_of_mark family order
        ((text.flatMap (marked family order).codec.encode).take
          (bomMaxBytes - (marked family order).mark.length))
      rw [stream, List.take_append, List.take_of_length_le short]
      cases family with
      | utf8Sig => cases order <;> rfl
      | utf16 => simp only [boundedCodec, encoding, markSelectedCodec, selected,
          Option.map_some, Option.getD_some]
      | utf32 => simp only [boundedCodec, encoding, markSelectedCodec, selected,
          Option.map_some, Option.getD_some]

theorem decodeText_stream (form : Form) (byteOrder : ByteOrder)
    (errors : ErrorHandler) (captureBytes : Bool) (text : List Char) :
    decodeText byteOrder ⟨form.encoding, errors, captureBytes⟩ (form.stream text) =
      some (text.map CodePoint.ofChar) := by
  have decoded := form.codec.reads.decode_encodeAll errors text
  cases form with
  | plain codec => exact decoded
  | marked family order =>
      rw [stream, decodeText]
      simp only [encoding, markSelected_of_mark, List.drop_left]
      exact decoded

end Form

namespace BoundedAccumulator

/-- The text a bounded capture returns, with its accounting. -/
structure Returns (form : Form) (limit : Nat) (text : List Char)
    (final : CaptureFinal) (kept : List Char) : Prop where
  payload : final.payload = some (.text (kept.map CodePoint.ofChar))
  isSuffix : kept <:+ text
  complete : final.capture.droppedBytes = 0 → kept = text
  inside : kept.flatMap form.codec.encode <:+
    (form.stream text).drop ((form.stream text).length - limit)
  longest : ∀ longer, longer <:+ text →
    (longer.flatMap form.codec.encode).length ≤ limit → longer <:+ kept
  accounted : final.capture.droppedBytes +
    ((if final.capture.droppedBytes = 0 then form.mark.length else 0) +
      (kept.flatMap form.codec.encode).length) = final.capture.totalBytes

theorem finalize_complete {self : BoundedAccumulator} (complete : self.dropped = 0)
    (byteOrder : ByteOrder) :
    (self.finalize byteOrder).1 =
      ⟨render byteOrder self.buffer self.settings,
        ⟨self.stream, .bounded, self.total, 0⟩⟩ := by
  simp [finalize, complete]

theorem finalize_dropped {self : BoundedAccumulator} (dropped : self.dropped ≠ 0)
    (textMode : self.settings.captureBytes = false) {byteOrder : ByteOrder}
    {codec : TextCodec}
    (selected : boundedCodec byteOrder self.settings.encoding self.streamStart =
      codec) :
    (self.finalize byteOrder).1 =
      ⟨(codec.decoder.decode self.settings.errors
          (trimToCodePoint self.buffer codec self.offset)).map .text,
        ⟨self.stream, .bounded, self.total, self.dropped + self.buffer.length -
          (trimToCodePoint self.buffer codec self.offset).length⟩⟩ := by
  simp only [finalize, boundedSettings, selected, if_pos dropped, textMode, dropped,
    Bool.false_eq_true, or_self, if_false, render, decodeText]

theorem returns_of_complete {self : BoundedAccumulator} {form : Form}
    {text : List Char} (absorbed : self.Absorbed (form.stream text))
    (textMode : self.settings.captureBytes = false)
    (named : self.settings.encoding = form.encoding)
    (fits : (form.stream text).length ≤ self.policy.maxBytes)
    (byteOrder : ByteOrder) :
    Returns form self.policy.maxBytes text (self.finalize byteOrder).1 text := by
  have undropped : (form.stream text).length - self.policy.maxBytes = 0 := by
    omega
  have buffer : self.buffer = form.stream text := by
    rw [absorbed.buffer, undropped, List.drop_zero]
  have decoded := form.decodeText_stream byteOrder self.settings.errors
    self.settings.captureBytes text
  rw [← named] at decoded
  rw [finalize_complete (absorbed.dropped.trans undropped)]
  refine ⟨?_, List.suffix_refl text, fun _ => rfl, ?_, fun _ isSuffix _ => isSuffix,
    ?_⟩
  · rw [render, textMode, buffer, decoded]
    rfl
  · rw [undropped, List.drop_zero]
    exact List.suffix_append _ _
  · simp [absorbed.total, Form.stream]

/-- What a cut of the stream keeps is a suffix of the text: a mark that lost a
byte is lost whole. -/
theorem kept_suffix_text {form : Form} {text head kept : List Char} {offset : Nat}
    {part : List UInt8}
    (cut : Decoder.Cut form.codec.encode (form.markText ++ text) offset head kept
      part) (positive : 0 < offset) : kept <:+ text := by
  have proper : head ≠ [] := by
    rintro rfl
    have position := cut.position
    simp only [List.flatMap_nil, List.length_nil] at position
    omega
  have isSuffix : kept <:+ form.markText ++ text := ⟨head, cut.split.symm⟩
  cases form with
  | plain codec => exact isSuffix
  | marked family order =>
      rcases List.suffix_cons_iff.mp isSuffix with whole | inner
      · have lengths := congrArg List.length cut.split
        rw [whole, List.length_append] at lengths
        have := List.length_pos_iff.mpr proper
        simp [Form.markText] at lengths
        omega
      · exact inner

theorem returns_of_overflow {self : BoundedAccumulator} {form : Form}
    {text : List Char} (absorbed : self.Absorbed (form.stream text))
    (textMode : self.settings.captureBytes = false)
    (named : self.settings.encoding = form.encoding)
    (exceeds : self.policy.maxBytes < (form.stream text).length)
    (byteOrder : ByteOrder) :
    ∃ kept, Returns form self.policy.maxBytes text
      (self.finalize byteOrder).1 kept := by
  have selected := form.boundedCodec_stream byteOrder text
  rw [← absorbed.streamStart, ← named] at selected
  have dropped : self.dropped ≠ 0 := by
    rw [absorbed.dropped]
    omega
  obtain ⟨head, kept, part, cut⟩ := Decoder.exists_cut form.codec.encode
    (form.markText ++ text) ((form.stream text).length - self.policy.maxBytes)
    (by rw [← form.stream_eq]; omega)
  have isSuffix := kept_suffix_text cut (by omega)
  have trimmed := trimToCodePoint_cut cut
  have tail := cut.tail
  rw [← form.stream_eq, ← absorbed.buffer] at trimmed tail
  rw [← absorbed.offset] at trimmed
  rw [finalize_dropped dropped textMode selected, trimmed]
  have held := congrArg List.length tail
  have buffered := congrArg List.length absorbed.buffer
  rw [List.length_append] at held
  rw [List.length_drop] at buffered
  have lost : self.dropped + self.buffer.length -
      (kept.flatMap form.codec.encode).length ≠ 0 := by
    omega
  refine ⟨kept, ?_, isSuffix, fun complete => absurd complete lost, ?_, ?_, ?_⟩
  · have decoded := form.codec.reads.decode_encodeAll self.settings.errors kept
    simp only [TextCodec.decoder, decoded, Option.map_some]
  · rw [← absorbed.buffer, tail]
    exact List.suffix_append _ _
  · intro longer inside fits
    have within : longer <:+ form.markText ++ text :=
      inside.trans (List.suffix_append _ _)
    refine cut.longest form.codec.reads.encode_length_pos within ?_
    rw [← form.stream_eq]
    omega
  · rw [if_neg lost, absorbed.total]
    have := absorbed.dropped
    dsimp only
    omega

/-- A bounded capture returns the longest run of whole code points at the end of
the stream that its bound can hold, and accounts for every byte. -/
theorem bounded_capture_returns (form : Form) (byteOrder : ByteOrder)
    (policy : BoundedCapture) (stream : CaptureStreamName) (errors : ErrorHandler)
    (text : List Char) (chunks : List (List UInt8))
    (written : chunks.flatten = form.stream text) :
    let accumulator :=
      (initial policy stream ⟨form.encoding, errors, false⟩).absorbAll chunks
    accumulator.buffer.length ≤ policy.maxBytes ∧
      accumulator.total = chunks.flatten.length ∧
      (accumulator.finalize byteOrder).1.capture.totalBytes =
        chunks.flatten.length ∧
      decodeText byteOrder ⟨form.encoding, errors, false⟩ chunks.flatten =
        some (text.map CodePoint.ofChar) ∧
      ∃ kept, Returns form policy.maxBytes text
        (accumulator.finalize byteOrder).1 kept := by
  intro accumulator
  obtain ⟨absorbed, samePolicy, sameSettings⟩ := absorbAll_absorbed
    (absorbed_initial policy stream ⟨form.encoding, errors, false⟩) chunks
  rw [List.nil_append, written] at absorbed
  have bound : accumulator.policy.maxBytes = policy.maxBytes :=
    congrArg BoundedCapture.maxBytes samePolicy
  have textMode : accumulator.settings.captureBytes = false :=
    congrArg DecodeSettings.captureBytes sameSettings
  have named : accumulator.settings.encoding = form.encoding :=
    congrArg DecodeSettings.encoding sameSettings
  refine ⟨?_, ?_, ?_, ?_, ?_⟩
  · rw [absorbed.buffer, List.length_drop, samePolicy]
    rw [Nat.sub_sub_eq_min]
    exact Nat.min_le_right _ _
  · rw [written]
    exact absorbed.total
  · rw [written]
    exact absorbed.total
  · rw [written]
    exact form.decodeText_stream byteOrder errors false text
  · rw [← bound]
    by_cases fits : (form.stream text).length ≤ accumulator.policy.maxBytes
    · exact ⟨text, returns_of_complete absorbed textMode named fits byteOrder⟩
    · exact returns_of_overflow absorbed textMode named
        (Nat.lt_of_not_le fits) byteOrder

theorem bounded_capture_returns_big_endian :
    let accumulator := (initial ⟨5, by decide⟩ .stdout
      ⟨.family .utf16, fun _ => none, false⟩).absorbAll
        [[0xFE], [0xFF, 0x00, 0x61, 0xD8], [], [0x3D, 0xDE, 0x00]]
    accumulator.buffer.length ≤ 5 ∧
      ∃ kept, Returns (.marked .utf16 .big) 5 ['a', '😀']
        (accumulator.finalize .little).1 kept := by
  have returned := bounded_capture_returns (.marked .utf16 .big) .little
    ⟨5, by decide⟩ .stdout (fun _ => none) ['a', '😀']
    [[0xFE], [0xFF, 0x00, 0x61, 0xD8], [], [0x3D, 0xDE, 0x00]] (by decide)
  exact ⟨returned.1, returned.2.2.2.2⟩

end BoundedAccumulator

end Cuprum.Capture
