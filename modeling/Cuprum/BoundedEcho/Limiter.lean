import Cuprum.Echo.Truncation
import Mathlib.Algebra.Group.Nat.Defs
import Mathlib.Order.Monotone.Basic

namespace Cuprum.BoundedEcho

open Text Echo

/-- A byte of a marker's ASCII text: a space, a dot, a bracket, a digit or a lower
case letter. -/
def isMarkerByte (byte : UInt8) : Bool :=
  byte == 0x20 || byte == 0x2E || byte == 0x5B || byte == 0x5D ||
    (0x30 ≤ byte && byte ≤ 0x39) || (0x61 ≤ byte && byte ≤ 0x7A)

/-- A codec under one error policy, as bounded echo uses it: incrementally, by one
byte at a time, and on the text of a marker.  A call that raises has no result, and what
it raises is a `UnicodeError` or, from a policy that cannot answer, something else.  The
laws are those of an ASCII-compatible codec, asked for the marker's text only. -/
structure IncrementalCodec where
  Decoding : Type
  Encoding : Type
  decoder : Decoding
  encoder : Encoding
  decode : Decoding → UInt8 → Option (List CodePoint × Decoding)
  /-- A decode without a result raises something else than a `UnicodeError`. -/
  decodeEscapes : Decoding → UInt8 → Bool
  holdsBytes : Decoding → Bool
  encode : Encoding → List CodePoint → Option (List UInt8 × Encoding)
  encodeEscapes : Encoding → List CodePoint → Bool
  /-- What a final call would add. -/
  flush : Encoding → List UInt8
  encodeStrict : List CodePoint → Option (List UInt8)
  encodeText : List CodePoint → Option (List UInt8)
  decoder_fresh : holdsBytes decoder = false
  encoder_fresh : flush encoder = []
  decode_marker : ∀ byte, isMarkerByte byte →
    decode decoder byte = some ([.ofNat byte.toNat], decoder)
  encode_marker : ∀ byte, isMarkerByte byte →
    encode encoder [.ofNat byte.toNat] = some ([byte], encoder)
  encodeText_marker : ∀ bytes, (∀ byte ∈ bytes, isMarkerByte byte) →
    encodeText (asciiText bytes) = some bytes
  encodeStrict_marker : ∃ ellipsis : Option (List UInt8),
    ∀ bytes, (∀ byte ∈ bytes, isMarkerByte byte) →
      encodeStrict (codePoints "… " ++ asciiText bytes) = ellipsis.map (· ++ bytes)

/-- Whatever the codec raises, is a `UnicodeError`. -/
structure IncrementalCodec.Heeded (codec : IncrementalCodec) : Prop where
  decode : ∀ decoding byte, codec.decodeEscapes decoding byte = false
  encode : ∀ encoding text, codec.encodeEscapes encoding text = false

structure LineSettings where
  codec : IncrementalCodec
  isTextSink : Bool

/-- The settings under an error policy that raises nothing but a `UnicodeError`. -/
structure EchoSettings extends LineSettings where
  heeded : codec.Heeded

/-- The codec, were its every error a `UnicodeError`. -/
def IncrementalCodec.hushed (codec : IncrementalCodec) : IncrementalCodec :=
  { codec with
    decodeEscapes := fun _ _ => false
    encodeEscapes := fun _ _ => false }

theorem IncrementalCodec.Heeded.hushed_eq {codec : IncrementalCodec} (heeded : codec.Heeded) :
    codec.hushed = codec := by
  have decode : codec.decodeEscapes = fun _ _ => false :=
    funext fun decoding => funext fun byte => heeded.decode decoding byte
  have encode : codec.encodeEscapes = fun _ _ => false :=
    funext fun encoding => funext fun text => heeded.encode encoding text
  rw [hushed, ← decode, ← encode]

def LineSettings.hushed (settings : LineSettings) : EchoSettings where
  codec := settings.codec.hushed
  isTextSink := settings.isTextSink
  heeded := ⟨fun _ _ => rfl, fun _ _ => rfl⟩

theorem EchoSettings.hushed_eq (settings : EchoSettings) :
    settings.toLineSettings.hushed = settings := by
  obtain ⟨⟨codec, isTextSink⟩, heeded⟩ := settings
  have same : codec.hushed = codec := heeded.hushed_eq
  unfold LineSettings.hushed
  congr

/-- The encoded marker, in its ASCII form where the codec has no ellipsis. -/
def truncationMarker (dropped : Nat) (codec : IncrementalCodec) : Option (List UInt8) :=
  match codec.encodeStrict (truncationMarkerTemplate dropped) with
  | some marker => some marker
  | none => codec.encodeText (asciiTruncationMarkerTemplate dropped)

/-- The scan of a text sink's prefix: the two coders, what has been encoded, how many
source bytes were read, and the last lengths at which both were safe to cut. -/
structure PrefixScan (codec : IncrementalCodec) where
  decoding : codec.Decoding
  encoding : codec.Encoding
  encoded : List UInt8
  length : Nat
  safeSourceLength : Nat
  safeEncodedLength : Nat

def PrefixScan.initial (codec : IncrementalCodec) : PrefixScan codec :=
  ⟨codec.decoder, codec.encoder, [], 0, 0, 0⟩

/-- A `UnicodeError` ends the scan, and any other error leaves it. -/
def scanPrefix (codec : IncrementalCodec) (budget : Nat) (scan : PrefixScan codec) :
    List UInt8 → Option (PrefixScan codec)
  | [] => some scan
  | byte :: rest =>
      match codec.decode scan.decoding byte with
      | none => if codec.decodeEscapes scan.decoding byte then none else some scan
      | some (decoded, decoding) =>
          match codec.encode scan.encoding decoded with
          | none => if codec.encodeEscapes scan.encoding decoded then none else some scan
          | some (bytes, encoding) =>
              let scan := { scan with
                decoding
                encoding
                encoded := scan.encoded ++ bytes
                length := scan.length + 1 }
              if codec.holdsBytes decoding then scanPrefix codec budget scan rest
              else if budget < scan.encoded.length then some scan
              else
                scanPrefix codec budget { scan with
                  safeSourceLength := scan.length
                  safeEncodedLength := scan.encoded.length } rest

/-- The largest source prefix whose echoed bytes fit a budget, and those bytes. -/
def encodePrefix (line : List UInt8) (budget : Nat) (settings : LineSettings) :
    Option (List UInt8 × List UInt8) :=
  if settings.isTextSink then
    (scanPrefix settings.codec budget (.initial settings.codec) line).map fun scan =>
      (line.take scan.safeSourceLength, scan.encoded.take scan.safeEncodedLength)
  else some (line.take budget, line.take budget)

def fitMarker (marker : List UInt8) (budget dropped : Nat) (settings : LineSettings) :
    Option (List UInt8) :=
  if marker.length ≤ budget then some marker
  else do
    let fallback ← settings.codec.encodeText (asciiTruncationMarkerTemplate dropped)
    let (_, encoded) ← encodePrefix fallback budget settings
    return encoded

/-- What the marker loop comes to, with the counts it tried and whether its equality
test ended it. -/
structure PrefixSearch where
  tried : List Nat
  settled : Bool
  retained : List UInt8
  encoded : List UInt8

/-- One finished line, its payload in the parts it is put together from. -/
structure FinishedLine where
  encoded : List UInt8
  marker : List UInt8
  ending : List UInt8
  droppedBytes : Nat
  sourceBytes : Nat

def FinishedLine.payload (line : FinishedLine) : List UInt8 :=
  line.encoded ++ line.marker ++ line.ending

/-- A marker-consistent source prefix and its echoed bytes, in at most `passes`
adjustments of the marker. -/
def boundedPrefix (self : EchoLineLimiter) (line : List UInt8)
    (finalization : LineFinalization) (settings : LineSettings) (dropped : Nat) :
    Nat → Option PrefixSearch
  | 0 => none
  | passes + 1 =>
      match truncationMarker dropped settings.codec with
      | none => none
      | some marker =>
          let budget := self.maxLineBytes - finalization.ending.length - marker.length
          match encodePrefix line budget settings with
          | none => none
          | some (retained, encoded) =>
              let updatedDropped := finalization.sourceBytes - retained.length +
                finalization.omittedEndingBytes
              if updatedDropped = dropped then some ⟨[dropped], true, retained, encoded⟩
              else if passes = 0 then some ⟨[dropped], false, retained, encoded⟩
              else
                (boundedPrefix self line finalization settings updatedDropped passes).map
                  fun search => { search with tried := dropped :: search.tried }

def finalizationOf (self : EchoLineLimiter) (ending : List UInt8) : LineFinalization where
  sourceBytes := self.sourceLineBytes
  ending := if ending.length ≤ self.maxLineBytes then ending else []
  omittedEndingBytes := if self.maxLineBytes < ending.length then ending.length else 0

/-- Finish one line within its byte budget; absent when an error leaves the call. -/
def finishLine (self : EchoLineLimiter) (ending : List UInt8) (settings : LineSettings) :
    Option FinishedLine × EchoLineLimiter :=
  let line := self.line
  let sourceLineBytes := self.sourceLineBytes
  let cleared := { self with line := [], sourceLineBytes := 0 }
  let finalization := finalizationOf self ending
  let finished : Option FinishedLine :=
    if sourceLineBytes + ending.length ≤ self.maxLineBytes then
      some ⟨line, [], finalization.ending, 0, sourceLineBytes + ending.length⟩
    else do
      let search ← boundedPrefix self line finalization settings
        (finalization.sourceBytes + finalization.omittedEndingBytes) 16
      let dropped := finalization.sourceBytes - search.retained.length +
        finalization.omittedEndingBytes
      let marker ← truncationMarker dropped settings.codec
      let remaining :=
        self.maxLineBytes - search.encoded.length - finalization.ending.length
      let marker ← fitMarker marker remaining dropped settings
      return ⟨search.encoded, marker, finalization.ending, dropped,
        sourceLineBytes + ending.length⟩
  (finished, cleared)

/-! The marker is encoded around one byte for each digit of its count. -/

def asciiBytes (text : List Char) : List UInt8 :=
  text.map fun c => .ofNat c.toNat

def digits (count : Nat) : Nat :=
  (Nat.toDigits 10 count).length

theorem digits_pos (count : Nat) : 0 < digits count :=
  Nat.length_toDigits_pos

theorem digits_le_iff {count width : Nat} (positive : 0 < width) :
    digits count ≤ width ↔ count < 10 ^ width :=
  Nat.length_toDigits_le_iff (by decide) positive

theorem digits_monotone : Monotone digits := by
  intro first second le
  rw [digits_le_iff (digits_pos second)]
  exact Nat.lt_of_le_of_lt le ((digits_le_iff (digits_pos second)).mp (Nat.le_refl _))

def isMarkerChar (c : Char) : Bool :=
  c.toNat < 0x80 && isMarkerByte (.ofNat c.toNat)

theorem isMarkerChar_digit {c : Char} (digit : c.isDigit = true) :
    isMarkerChar c = true := by
  obtain ⟨least, most⟩ := Char.isDigit_iff_toNat.mp digit
  have spelled : ∀ value, value < 58 → 48 ≤ value →
      (value < 0x80 && isMarkerByte (UInt8.ofNat value)) = true := by decide
  exact spelled _ (Nat.lt_succ_of_le most) least

def countText (dropped : Nat) : List Char :=
  "[truncated ".toList ++ Nat.toDigits 10 dropped ++ " bytes]".toList

theorem length_countText (dropped : Nat) :
    (countText dropped).length = 18 + digits dropped := by
  have opening : "[truncated ".toList.length = 11 := rfl
  have closing : " bytes]".toList.length = 7 := rfl
  unfold countText digits
  rw [List.length_append, List.length_append, opening, closing, Nat.add_right_comm]

theorem isMarkerChar_countText (dropped : Nat) :
    (countText dropped).all isMarkerChar = true := by
  have opening : "[truncated ".toList.all isMarkerChar = true := by decide
  have closing : " bytes]".toList.all isMarkerChar = true := by decide
  have counted : (Nat.toDigits 10 dropped).all isMarkerChar = true := by
    rw [List.all_eq_true]
    intro c member
    exact isMarkerChar_digit (Nat.isDigit_of_mem_toDigits (by decide) (by decide) member)
  unfold countText
  rw [List.all_append, List.all_append, Bool.and_eq_true_iff, Bool.and_eq_true_iff]
  exact ⟨⟨opening, counted⟩, closing⟩

theorem isMarkerByte_asciiBytes {text : List Char} (spelled : text.all isMarkerChar = true) :
    ∀ byte ∈ asciiBytes text, isMarkerByte byte := by
  intro byte member
  obtain ⟨c, inside, rfl⟩ := List.mem_map.mp member
  have marker := List.all_eq_true.mp spelled c inside
  exact (Bool.and_eq_true_iff.mp marker).2

theorem codePoints_ascii {text : List Char} (spelled : text.all isMarkerChar = true) :
    text.map CodePoint.ofChar = asciiText (asciiBytes text) := by
  rw [asciiBytes, asciiText, List.map_map]
  apply List.map_congr_left
  intro c member
  have marker := List.all_eq_true.mp spelled c member
  have ascii : c.toNat < 0x80 := by
    simpa using (Bool.and_eq_true_iff.mp marker).1
  have value : (UInt8.ofNat c.toNat).toNat = c.toNat :=
    UInt8.toNat_ofNat_of_lt' (Nat.lt_trans ascii (by decide))
  rw [Function.comp_apply, value, CodePoint.ofNat_toNat]

theorem truncationMarkerTemplate_eq (dropped : Nat) :
    truncationMarkerTemplate dropped =
      codePoints "… " ++ asciiText (asciiBytes (countText dropped)) := by
  have opening : "… [truncated ".toList = "… ".toList ++ "[truncated ".toList := by decide
  have text : ("… [truncated " ++ toString dropped ++ " bytes]").toList =
      "… ".toList ++ countText dropped := by
    unfold countText
    rw [String.toList_append, String.toList_append, Nat.toString_eq_repr,
      Nat.toList_repr, opening, List.append_assoc, List.append_assoc, List.append_assoc]
  rw [truncationMarkerTemplate, codePoints, text, List.map_append,
    codePoints_ascii (isMarkerChar_countText dropped), codePoints]

def asciiMarkerText (dropped : Nat) : List Char :=
  "... ".toList ++ countText dropped

theorem isMarkerChar_asciiMarkerText (dropped : Nat) :
    (asciiMarkerText dropped).all isMarkerChar = true := by
  have dots : "... ".toList.all isMarkerChar = true := by decide
  unfold asciiMarkerText
  rw [List.all_append, Bool.and_eq_true_iff]
  exact ⟨dots, isMarkerChar_countText dropped⟩

theorem encodeText_asciiMarker (codec : IncrementalCodec) (dropped : Nat) :
    codec.encodeText (asciiTruncationMarkerTemplate dropped) =
      some (asciiBytes (asciiMarkerText dropped)) := by
  have opening : "... [truncated ".toList = "... ".toList ++ "[truncated ".toList := by
    decide
  have text : ("... [truncated " ++ toString dropped ++ " bytes]").toList =
      asciiMarkerText dropped := by
    unfold asciiMarkerText countText
    rw [String.toList_append, String.toList_append, Nat.toString_eq_repr,
      Nat.toList_repr, opening, List.append_assoc, List.append_assoc, List.append_assoc]
  have spelled := isMarkerChar_asciiMarkerText dropped
  rw [asciiTruncationMarkerTemplate, codePoints, text, codePoints_ascii spelled]
  exact codec.encodeText_marker _ (isMarkerByte_asciiBytes spelled)

/-- Whatever a codec has for the ellipsis, the count follows it digit by digit. -/
theorem exists_markerHead (codec : IncrementalCodec) :
    ∃ head, ∀ dropped, truncationMarker dropped codec =
      some (head ++ asciiBytes (countText dropped)) := by
  obtain ⟨ellipsis, spelled⟩ := codec.encodeStrict_marker
  have strict : ∀ dropped, codec.encodeStrict (truncationMarkerTemplate dropped) =
      ellipsis.map (· ++ asciiBytes (countText dropped)) := by
    intro dropped
    rw [truncationMarkerTemplate_eq]
    exact spelled _ (isMarkerByte_asciiBytes (isMarkerChar_countText dropped))
  cases ellipsis with
  | some head =>
      refine ⟨head, fun dropped => ?_⟩
      rw [truncationMarker, strict]
      rfl
  | none =>
      refine ⟨asciiBytes "... ".toList, fun dropped => ?_⟩
      rw [truncationMarker, strict]
      simp only [Option.map_none, encodeText_asciiMarker, asciiMarkerText, asciiBytes,
        List.map_append]

end Cuprum.BoundedEcho
