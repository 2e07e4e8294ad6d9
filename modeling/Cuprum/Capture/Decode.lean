import Cuprum.Codec.CodeUnits

namespace Cuprum.Capture

open Codec Text

/-- The codecs whose code-point boundaries a cut tail can still show. -/
inductive Utf
  | utf8
  | utf16 (order : ByteOrder)
  | utf32 (order : ByteOrder)
  deriving DecidableEq

inductive TextCodec
  | utf (codec : Utf)
  | other (decoder : Decoder CodePoint UInt8)

/-- The names whose byte order is selected by a mark. -/
inductive Family
  | utf32
  | utf16
  | utf8Sig
  deriving DecidableEq

inductive Encoding
  | codec (codec : TextCodec)
  | family (family : Family)

abbrev ErrorHandler := List UInt8 → Option (List CodePoint)

def replaceErrors : ErrorHandler := fun _ => some [.ofNat 0xFFFD]

def Utf.encode : Utf → Char → List UInt8
  | .utf8 => String.utf8EncodeChar
  | .utf16 order => encodeUtf16 order
  | .utf32 order => encodeUtf32 order

def Utf.decoder : Utf → Decoder CodePoint UInt8
  | .utf8 => utf8Decoder
  | .utf16 order => Cuprum.Codec.utf16 order
  | .utf32 order => Cuprum.Codec.utf32 order

def TextCodec.decoder : TextCodec → Decoder CodePoint UInt8
  | .utf codec => codec.decoder
  | .other decoder => decoder

structure DecodeSettings where
  encoding : Encoding
  errors : ErrorHandler
  captureBytes : Bool

/-- Each family's little- then big-endian codec. -/
def bomSelectedCodecs : Family → Utf × Utf
  | .utf16 => (.utf16 .little, .utf16 .big)
  | .utf32 => (.utf32 .little, .utf32 .big)
  | .utf8Sig => (.utf8, .utf8)

/-- Each family's little- then big-endian mark, the wider marks first. -/
def bomMarks : List (Family × List UInt8 × List UInt8) :=
  [(.utf32, [0xFF, 0xFE, 0x00, 0x00], [0x00, 0x00, 0xFE, 0xFF]),
    (.utf16, [0xFF, 0xFE], [0xFE, 0xFF]),
    (.utf8Sig, [0xEF, 0xBB, 0xBF], [0xEF, 0xBB, 0xBF])]

def bomMaxBytes : Nat := 4

/-- The concrete codec a stream's first bytes select for a family, if any, with
the mark that selected it. -/
def markSelected (family : Family) (front : List UInt8) :
    Option (List UInt8 × Utf) :=
  match bomMarks.find? fun entry => entry.1 = family with
  | none => none
  | some (_, littleMark, bigMark) =>
      let (little, big) := bomSelectedCodecs family
      if littleMark <+: front then some (littleMark, little)
      else if bigMark <+: front then some (bigMark, big)
      else none

def markSelectedCodec (family : Family) (front : List UInt8) : Option Utf :=
  (markSelected family front).map Prod.snd

/-- The codec a family assumes on a platform when its stream has no mark. -/
def nativeCodec (byteOrder : ByteOrder) (family : Family) : Utf :=
  let (little, big) := bomSelectedCodecs family
  match byteOrder with
  | .little => little
  | .big => big

/-- The codec a truncated tail can still be read with. -/
def boundedCodec (byteOrder : ByteOrder) (encoding : Encoding)
    (front : List UInt8) : TextCodec :=
  match encoding with
  | .family .utf8Sig => .utf .utf8
  | .codec codec => codec
  | .family family =>
      .utf ((markSelectedCodec family front).getD (nativeCodec byteOrder family))

def boundedSettings (byteOrder : ByteOrder) (settings : DecodeSettings)
    (front : List UInt8) : DecodeSettings :=
  { settings with
    encoding := .codec (boundedCodec byteOrder settings.encoding front) }

/-- Decode a whole stream.  A family reads the mark, or assumes the platform's
order when there is none, and the mark is no part of the text. -/
def decodeText (byteOrder : ByteOrder) (settings : DecodeSettings)
    (bytes : List UInt8) : Option (List CodePoint) :=
  match settings.encoding with
  | .codec codec => codec.decoder.decode settings.errors bytes
  | .family family =>
      match markSelected family bytes with
      | some (mark, codec) =>
          codec.decoder.decode settings.errors (bytes.drop mark.length)
      | none => (nativeCodec byteOrder family).decoder.decode settings.errors bytes

inductive Payload
  | bytes (value : List UInt8)
  | text (value : List CodePoint)

/-- The value the caller reads; absent when the decode raises. -/
def render (byteOrder : ByteOrder) (retained : List UInt8)
    (settings : DecodeSettings) : Option Payload :=
  if settings.captureBytes then some (.bytes retained)
  else (decodeText byteOrder settings retained).map .text

def codeUnitBytes : TextCodec → Option Nat
  | .utf (.utf16 _) => some 2
  | .utf (.utf32 _) => some 4
  | _ => none

/-- Whether the UTF-16 halfword at an index is a low surrogate. -/
def startsWithLowSurrogate (tail : List UInt8) (cut : Nat) (codec : TextCodec) :
    Bool :=
  match codec, tail.drop cut with
  | .utf (.utf16 .little), _ :: high :: _ =>
      decide (0xDC ≤ high.toNat ∧ high.toNat ≤ 0xDF)
  | _, high :: _ :: _ => decide (0xDC ≤ high.toNat ∧ high.toNat ≤ 0xDF)
  | _, _ => false

def isContinuation (byte : UInt8) : Bool := byte &&& 0xC0 == 0x80

def leadingContinuations (limit : Nat) : List UInt8 → Nat
  | [] => 0
  | byte :: rest =>
      match limit with
      | 0 => 0
      | limit + 1 =>
          if isContinuation byte then leadingContinuations limit rest + 1 else 0

def utf8MaxCodePointBytes : Nat := 4

/-- How many leading bytes of a tail are the interior of a code point. -/
def leadingTrim (tail : List UInt8) (codec : TextCodec) (streamOffset : Nat) : Nat :=
  match codeUnitBytes codec with
  | some unit =>
      let cut := (unit - streamOffset % unit) % unit
      let cut :=
        if unit = 2 ∧ startsWithLowSurrogate tail cut codec then cut + unit else cut
      min cut tail.length
  | none =>
      match codec with
      | .utf .utf8 =>
          leadingContinuations (min tail.length (utf8MaxCodePointBytes - 1)) tail
      | _ => 0

/-- Bytes of an incomplete trailing code point, as the codec's incremental
decoder holds them. -/
def pendingBytes (retained : List UInt8) (codec : TextCodec) : Nat :=
  match codec.decoder.run replaceErrors retained with
  | some (_, pending) => pending.length
  | none => 0

def trimToCodePoint (tail : List UInt8) (codec : TextCodec) (streamOffset : Nat) :
    List UInt8 :=
  let retained := tail.drop (leadingTrim tail codec streamOffset)
  let pending := pendingBytes retained codec
  if pending ≠ 0 then retained.take (retained.length - pending) else retained

theorem Utf.reads (utf : Utf) : utf.decoder.Reads utf.encode CodePoint.ofChar := by
  cases utf with
  | utf8 => exact utf8Decoder_reads
  | utf16 order => exact utf16_reads order
  | utf32 order => exact utf32_reads order

/-! The front and the interior of a code point, codec by codec. -/

theorem isContinuation_iff (byte : UInt8) :
    isContinuation byte = true ↔ Utf8.IsTail byte.toNat := by
  have finite : ∀ value : Fin 256, isContinuation (UInt8.ofNat value.val) = true ↔
      0x80 ≤ value.val ∧ value.val ≤ 0xBF := by
    decide +kernel
  have here := finite byte.toFin
  simpa [Utf8.IsTail] using here

theorem utf8_shape (c : Char) : ∃ lead rest,
    String.utf8EncodeChar c = lead :: rest ∧ isContinuation lead = false ∧
      (∀ byte ∈ rest, isContinuation byte = true) ∧ rest.length ≤ 3 := by
  have isWord := Utf8.isWord_encode c
  have lead {byte : UInt8} (outside : ¬ Utf8.IsTail byte.toNat) :
      isContinuation byte = false :=
    Bool.eq_false_iff.mpr fun inside => outside ((isContinuation_iff byte).mp inside)
  match shape : String.utf8EncodeChar c with
  | [] => simp [shape, Utf8.IsWord] at isWord
  | [a] =>
      simp only [shape, List.map_cons, List.map_nil, Utf8.IsWord] at isWord
      refine ⟨a, [], rfl, lead ?_, by simp, by simp⟩
      unfold Utf8.IsTail
      omega
  | [a, b] =>
      simp only [shape, List.map_cons, List.map_nil, Utf8.IsWord] at isWord
      refine ⟨a, [b], rfl, lead ?_, ?_, by simp⟩
      · unfold Utf8.IsTail
        omega
      · simpa [isContinuation_iff] using isWord.2
  | [a, b, d] =>
      simp only [shape, List.map_cons, List.map_nil, Utf8.IsWord] at isWord
      refine ⟨a, [b, d], rfl, lead ?_, ?_, by simp⟩
      · unfold Utf8.IsTail
        omega
      · simpa [isContinuation_iff] using ⟨isWord.2.1.1, isWord.2.2⟩
  | [a, b, d, e] =>
      simp only [shape, List.map_cons, List.map_nil, Utf8.IsWord] at isWord
      refine ⟨a, [b, d, e], rfl, lead ?_, ?_, by simp⟩
      · unfold Utf8.IsTail
        omega
      · simpa [isContinuation_iff] using
          ⟨isWord.2.1.1, isWord.2.2.1, isWord.2.2.2⟩
  | _ :: _ :: _ :: _ :: _ :: _ => simp [shape, Utf8.IsWord] at isWord

theorem leadingContinuations_append {part rest : List UInt8} {limit : Nat}
    (interior : ∀ byte ∈ part, isContinuation byte = true)
    (short : part.length ≤ limit)
    (boundary : ∀ byte, rest.head? = some byte → isContinuation byte = false) :
    leadingContinuations limit (part ++ rest) = part.length := by
  induction part generalizing limit with
  | nil =>
      cases rest with
      | nil => simp [leadingContinuations]
      | cons byte rest =>
          cases limit with
          | zero => rfl
          | succ limit => simp [leadingContinuations, boundary byte rfl]
  | cons byte part induction =>
      obtain ⟨limit, rfl⟩ := Nat.exists_eq_add_one.mpr
        (Nat.lt_of_lt_of_le (Nat.succ_pos part.length) short)
      rw [List.cons_append, leadingContinuations,
        if_pos (interior byte List.mem_cons_self),
        induction (fun other member =>
          interior other (List.mem_cons_of_mem byte member))
          (Nat.le_of_succ_le_succ short)]
      rfl

theorem halfwordBytes_length (order : ByteOrder) (value : Nat) :
    (halfwordBytes order value).length = 2 := by
  cases order <;> rfl

theorem startsWithLowSurrogate_halfword (order : ByteOrder) {value : Nat}
    (small : value < 0x10000) (before after : List UInt8) :
    startsWithLowSurrogate (before ++ (halfwordBytes order value ++ after))
        before.length (.utf (.utf16 order)) =
      decide (0xDC00 ≤ value ∧ value ≤ 0xDFFF) := by
  have high : (UInt8.ofNat (value / 256)).toNat = value / 256 := by
    rw [UInt8.toNat_ofNat', Nat.mod_eq_of_lt (by omega)]
  have range : (0xDC ≤ value / 256 ∧ value / 256 ≤ 0xDF) ↔
      (0xDC00 ≤ value ∧ value ≤ 0xDFFF) := by
    omega
  unfold startsWithLowSurrogate
  rw [List.drop_left]
  cases order <;> simp only [halfwordBytes, List.cons_append, List.nil_append,
    high, range]

theorem encodeUtf16_shape (order : ByteOrder) (c : Char) :
    (∃ value, value < 0x10000 ∧ ¬ (0xDC00 ≤ value ∧ value ≤ 0xDFFF) ∧
      encodeUtf16 order c = halfwordBytes order value) ∨
    ∃ high low, high < 0xDC00 ∧ (0xDC00 ≤ low ∧ low ≤ 0xDFFF) ∧
      encodeUtf16 order c = halfwordBytes order high ++ halfwordBytes order low := by
  have valid := Utf8.isValidChar_toNat c
  have limit := toNat_lt_limit c
  unfold Nat.isValidChar at valid
  unfold encodeUtf16
  split
  next small => exact .inl ⟨c.toNat, small, by omega, rfl⟩
  next large => exact .inr ⟨_, _, by omega, by omega, rfl⟩

theorem encodeUtf16_length_even (order : ByteOrder) (text : List Char) :
    (text.flatMap (encodeUtf16 order)).length % 2 = 0 := by
  induction text with
  | nil => rfl
  | cons c text induction =>
      rw [List.flatMap_cons, List.length_append]
      rcases encodeUtf16_shape order c with ⟨value, _, _, shape⟩ |
          ⟨high, low, _, _, shape⟩
      · rw [shape, halfwordBytes_length]
        omega
      · rw [shape, List.length_append, halfwordBytes_length, halfwordBytes_length]
        omega

theorem encodeUtf32_length (order : ByteOrder) (c : Char) :
    (encodeUtf32 order c).length = 4 := by
  cases order <;> simp [encodeUtf32, halfwordBytes]

theorem encodeUtf32_length_aligned (order : ByteOrder) (text : List Char) :
    (text.flatMap (encodeUtf32 order)).length % 4 = 0 := by
  induction text with
  | nil => rfl
  | cons c text induction =>
      rw [List.flatMap_cons, List.length_append, encodeUtf32_length]
      omega

theorem startsWithLowSurrogate_text (order : ByteOrder) (before : List UInt8)
    (text : List Char) :
    startsWithLowSurrogate (before ++ text.flatMap (encodeUtf16 order))
      before.length (.utf (.utf16 order)) = false := by
  cases text with
  | nil =>
      cases order <;> simp [startsWithLowSurrogate]
  | cons c text =>
      rw [List.flatMap_cons]
      rcases encodeUtf16_shape order c with ⟨value, small, notLow, shape⟩ |
          ⟨high, low, small, _, shape⟩
      · rw [shape, startsWithLowSurrogate_halfword order small]
        exact decide_eq_false notLow
      · rw [shape, List.append_assoc,
          startsWithLowSurrogate_halfword order (by omega)]
        exact decide_eq_false (by omega)

/-! A cut is trimmed to the next boundary, whatever the codec. -/

theorem leadingTrim_utf8 {symbols head kept : List Char} {offset : Nat}
    {part : List UInt8}
    (cut : Decoder.Cut String.utf8EncodeChar symbols offset head kept part) :
    leadingTrim (part ++ kept.flatMap String.utf8EncodeChar) (.utf .utf8) offset =
      part.length := by
  have interior : (∀ byte ∈ part, isContinuation byte = true) ∧
      part.length ≤ 3 := by
    rcases cut.inside with rfl | ⟨_, c, _, isSuffix, short⟩
    · simp
    · obtain ⟨lead, rest, shape, _, conts, few⟩ := utf8_shape c
      rw [shape] at isSuffix short
      have inner : part <:+ rest := by
        rcases List.suffix_cons_iff.mp isSuffix with whole | inner
        · rw [whole] at short
          omega
        · exact inner
      exact ⟨fun byte member => conts byte (inner.mem member),
        inner.length_le.trans few⟩
  have boundary : ∀ byte,
      (kept.flatMap String.utf8EncodeChar).head? = some byte →
        isContinuation byte = false := by
    intro byte head
    cases kept with
    | nil => simp at head
    | cons c kept =>
        obtain ⟨lead, rest, shape, notCont, _⟩ := utf8_shape c
        rw [List.flatMap_cons, shape] at head
        rw [← Option.some.inj head]
        exact notCont
  refine leadingContinuations_append interior.1 ?_ boundary
  have := interior.2
  rw [List.length_append, utf8MaxCodePointBytes]
  omega

theorem leadingTrim_utf16 (order : ByteOrder) {symbols head kept : List Char}
    {offset : Nat} {part : List UInt8}
    (cut : Decoder.Cut (encodeUtf16 order) symbols offset head kept part) :
    leadingTrim (part ++ kept.flatMap (encodeUtf16 order)) (.utf (.utf16 order))
      offset = part.length := by
  have position := cut.position
  have aligned := encodeUtf16_length_even order head
  have after := startsWithLowSurrogate_text order part kept
  have within : part.length ≤
      (part ++ kept.flatMap (encodeUtf16 order)).length := by
    simp
  simp only [leadingTrim, codeUnitBytes, true_and]
  by_cases narrow : part.length < 2
  · have skip : (2 - offset % 2) % 2 = part.length := by omega
    rw [skip, after, if_neg (by simp)]
    omega
  · -- only the halves of a surrogate pair are wide enough
    rcases cut.inside with rfl | ⟨_, c, _, isSuffix, short⟩
    · simp at narrow
    · rcases encodeUtf16_shape order c with ⟨value, _, _, shape⟩ |
          ⟨high, low, _, isLow, shape⟩
      · rw [shape, halfwordBytes_length] at short
        omega
      · rw [shape] at isSuffix short
        rw [List.length_append, halfwordBytes_length, halfwordBytes_length] at short
        obtain ⟨front, rfl⟩ : halfwordBytes order low <:+ part :=
          List.suffix_of_suffix_length_le (List.suffix_append _ _) isSuffix
            (by rw [halfwordBytes_length]; omega)
        rw [List.length_append, halfwordBytes_length] at position narrow
        have skip : (2 - offset % 2) % 2 = front.length := by
          rw [List.length_append, halfwordBytes_length] at short
          omega
        rw [skip, List.append_assoc,
          startsWithLowSurrogate_halfword order (by omega), if_pos (by simpa using isLow)]
        simp [halfwordBytes_length]

theorem leadingTrim_utf32 (order : ByteOrder) {symbols head kept : List Char}
    {offset : Nat} {part : List UInt8}
    (cut : Decoder.Cut (encodeUtf32 order) symbols offset head kept part) :
    leadingTrim (part ++ kept.flatMap (encodeUtf32 order)) (.utf (.utf32 order))
      offset = part.length := by
  have position := cut.position
  have aligned := encodeUtf32_length_aligned order head
  have narrow : part.length < 4 := by
    rcases cut.inside with rfl | ⟨_, c, _, _, short⟩
    · simp
    · rwa [encodeUtf32_length] at short
  have within : part.length ≤
      (part ++ kept.flatMap (encodeUtf32 order)).length := by
    simp
  have skip : (4 - offset % 4) % 4 = part.length := by omega
  simp only [leadingTrim, codeUnitBytes]
  rw [skip, if_neg (by simp)]
  omega

theorem leadingTrim_cut {utf : Utf} {symbols head kept : List Char} {offset : Nat}
    {part : List UInt8}
    (cut : Decoder.Cut utf.encode symbols offset head kept part) :
    leadingTrim (part ++ kept.flatMap utf.encode) (.utf utf) offset =
      part.length := by
  cases utf with
  | utf8 => exact leadingTrim_utf8 cut
  | utf16 order => exact leadingTrim_utf16 order cut
  | utf32 order => exact leadingTrim_utf32 order cut

theorem pendingBytes_text (utf : Utf) (text : List Char) :
    pendingBytes (text.flatMap utf.encode) (.utf utf) = 0 := by
  have whole := utf.reads.run_encodeAll replaceErrors text
  simp only [pendingBytes, TextCodec.decoder, whole, List.length_nil]

/-- The trim of a cut encoded text is the encoding of what the cut keeps. -/
theorem trimToCodePoint_cut {utf : Utf} {symbols head kept : List Char}
    {offset : Nat} {part : List UInt8}
    (cut : Decoder.Cut utf.encode symbols offset head kept part) :
    trimToCodePoint ((symbols.flatMap utf.encode).drop offset) (.utf utf) offset =
      kept.flatMap utf.encode := by
  rw [cut.tail, trimToCodePoint, leadingTrim_cut cut]
  simp only [List.drop_left, pendingBytes_text]
  rw [if_neg (by simp)]

end Cuprum.Capture
